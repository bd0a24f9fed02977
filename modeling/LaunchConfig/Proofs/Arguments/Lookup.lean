import LaunchConfig.Arguments.Grammar
import LaunchConfig.Conversion.BuildOption
import LaunchConfig.Proofs.Options.Registered

/-!
# What a name is looked up as

The look-ups search a list for the first option that answers to a name. Where
registration has kept the names distinct and they can be typed, there is at most
one such option, so that a look-up finds an option exactly when the option is
registered and answers to the name.

Results:

* `short?_eq_option_iff`, `long?_eq_option_iff`: what the look-ups find;
* `Typable.ne_of_short?`, `Typable.of_typedLong?`: the characters of a name that is
  typed;
* `Schema.Distinct.parsable`: names that can be typed can be told apart;
* `typable_buildSchema_standard`: the names of the options of a build can be typed.
-/

namespace LaunchConfig

/-! ## Names that can be typed -/

/-- A name that can be typed after one or two dashes, with `=` and a value after it. -/
def TypableName (name : String) : Prop :=
  name ≠ "" ∧ name.toList.head? ≠ some '-' ∧ '=' ∉ name.toList ∧ name ≠ positionalName

instance (name : String) : Decidable (TypableName name) := by
  unfold TypableName
  infer_instance

namespace OptionSpec

/-- The id and the long names can be typed. -/
def Typable (o : OptionSpec) : Prop := ∀ name ∈ o.id :: o.longNames, TypableName name

instance (o : OptionSpec) : Decidable o.Typable := by
  unfold Typable
  infer_instance

variable {o : OptionSpec}

/-- The long name that is typed is one of those that registration compares. -/
theorem Typable.typedLong?_mem (ho : o.Typable) {l : String} (h : o.typedLong? = some l) :
    l ∈ o.longNames := by
  obtain ⟨name, hname, rfl⟩ := typedLong?_mem_longNames h
  have htyp : TypableName name := ho name (List.mem_cons_of_mem _ hname)
  rwa [withoutDashes_of_head_ne htyp.2.1]

theorem Typable.of_typedLong? (ho : o.Typable) {l : String} (h : o.typedLong? = some l) :
    TypableName l :=
  ho l (List.mem_cons_of_mem _ (ho.typedLong?_mem h))

theorem Typable.ne_of_short? (ho : o.Typable) {c : Char} (h : o.short? = some c) :
    c ≠ '-' ∧ c ≠ '=' := by
  have hid : o.id.toList = [c] := short?_eq_some_iff.1 h
  obtain ⟨-, hhead, heq, -⟩ := ho o.id List.mem_cons_self
  rw [hid] at hhead heq
  exact ⟨fun hc => hhead (by rw [hc]; rfl), fun hc => heq (by rw [hc]; exact List.mem_cons_self)⟩

end OptionSpec

/-- All names in the schema can be typed. -/
def Schema.Typable (s : Schema) : Prop := ∀ o ∈ s.options, o.Typable

instance (s : Schema) : Decidable s.Typable := by
  unfold Schema.Typable
  infer_instance

/-- Names that can be typed can be told apart: what registration compares is what is typed. -/
theorem Schema.Distinct.parsable {s : Schema} (hs : s.Distinct) (ht : s.Typable) :
    s.Parsable := by
  constructor
  · intro o ho
    obtain ⟨-, hdash, -, hpositional⟩ := ht o ho o.id List.mem_cons_self
    refine ⟨fun hid => hdash ?_, hpositional⟩
    rw [hid]
    rfl
  · rw [List.Nodup, List.pairwise_filterMap]
    refine hs.longs.imp_of_mem fun {a b} ha hb hapart l hl l' hl' => ?_
    rintro rfl
    exact hapart l ((ht a ha).typedLong?_mem hl) ((ht b hb).typedLong?_mem hl')

/-! ## Looking names up -/

namespace Grammar

variable {g : Grammar} {o : OptionSpec}

/-- A letter stands for the option that is registered under it. -/
theorem short?_eq_option_iff (hs : g.schema.Distinct) {c : Char} :
    g.short? c = some (.option o) ↔ o ∈ g.schema.options ∧ o.short? = some c := by
  constructor
  · intro h
    exact ⟨option_mem_names.1 (short?_mem h), short?_eq_some h⟩
  · rintro ⟨ho, hc⟩
    obtain ⟨n, hn⟩ : ∃ n, g.short? c = some n := by
      rw [← Option.isSome_iff_exists]
      exact List.find?_isSome.2 ⟨.option o, option_mem_names.2 ho, decide_eq_true hc⟩
    have hid : n.spec.id = o.id := OptionSpec.id_eq_of_short? (short?_eq_some hn) hc
    have hres : n.spec.id ∉ reservedNames := by
      rw [hid]
      exact hs.unreserved o ho o.id List.mem_cons_self
    cases n with
    | option o' => rw [hn, hs.eq_of_id (option_mem_names.1 (short?_mem hn)) ho hid]
    | help => exact absurd (by decide) hres
    | version => exact absurd (by decide) hres

/-- A long name stands for the option that is typed by it. -/
theorem long?_eq_option_iff (hs : g.schema.Distinct) (ht : g.schema.Typable) {l : String} :
    g.long? l = some (.option o) ↔ o ∈ g.schema.options ∧ o.typedLong? = some l := by
  constructor
  · intro h
    exact ⟨option_mem_names.1 (long?_mem h), long?_eq_some h⟩
  · rintro ⟨ho, hl⟩
    obtain ⟨n, hn⟩ : ∃ n, g.long? l = some n := by
      rw [← Option.isSome_iff_exists]
      exact List.find?_isSome.2 ⟨.option o, option_mem_names.2 ho, decide_eq_true hl⟩
    have hmem : l ∈ o.longNames := (ht o ho).typedLong?_mem hl
    have hres : l ∉ reservedNames := hs.unreserved o ho l (List.mem_cons_of_mem _ hmem)
    cases n with
    | option o' =>
      have ho' : o' ∈ g.schema.options := option_mem_names.1 (long?_mem hn)
      have hmem' : l ∈ o'.longNames := (ht o' ho').typedLong?_mem (long?_eq_some hn)
      rw [hn, hs.eq_of_long ho' ho hmem' hmem]
    | help =>
      obtain rfl : "help" = l := Option.some.inj (long?_eq_some hn)
      exact absurd (by decide) hres
    | version =>
      obtain rfl : "version" = l := Option.some.inj (long?_eq_some hn)
      exact absurd (by decide) hres

end Grammar

/-! ## The options of a build -/

theorem registered_buildSchema_standard : (buildSchema .standard).Registered :=
  Schema.registered_registerAll .empty _

theorem typable_buildSchema_standard : (buildSchema .standard).Typable := by
  decide +kernel

theorem parsable_buildSchema_standard : (buildSchema .standard).Parsable :=
  registered_buildSchema_standard.distinct.parsable typable_buildSchema_standard

end LaunchConfig
