/-!
# Options

An option is known by its id. An id of one character is typed after one dash;
an option may also have a long name, typed after two, and an id of several
characters serves as the long name of an option that has no other.

Results:

* `short?_eq_some_iff`: a short letter is an id of one character;
* `typedLong?_mem_longNames`: the long name an option is typed by is one of the
  names it takes, without the dashes that stand at its beginning;
* `withoutDashes_of_head_ne`: most names begin with no dash and stay as they are.
-/

namespace LaunchConfig

/-- An option as it is typed: one dash before an id of one character, two dashes before any other
    (`option_label`). -/
def optionLabel (id : String) : String :=
  match id.toList with
  | [_] => "-" ++ id
  | _ => "--" ++ id

/-- A long name without the dashes at its beginning: they are not typed again
    after the two that mark a long name. -/
def withoutDashes (name : String) : String := String.ofList (name.toList.dropWhile (· = '-'))

theorem withoutDashes_of_head_ne {name : String} (h : name.toList.head? ≠ some '-') :
    withoutDashes name = name := by
  unfold withoutDashes
  cases hn : name.toList with
  | nil => rw [← String.toList_inj]; simp [hn]
  | cons c rest =>
    have hc : c ≠ '-' := by simpa [hn] using h
    rw [List.dropWhile_cons_of_neg (by simpa using hc), ← hn, String.ofList_toList]

/-- The name under which positional arguments are collected. -/
def positionalName : String := "extra-arguments"

/-- How many values an option takes. -/
inductive Arity where
  /-- No value. -/
  | flag
  /-- One value, once on a command line. -/
  | single
  /-- One value for each time it is given. -/
  | multiple
  deriving DecidableEq, Repr

/-- An option that a command line may give (`RecognizedOption`). -/
structure OptionSpec where
  id : String
  long? : Option String := none
  arity : Arity := .flag
  description : String := ""
  /-- The task that the option asks for when it is given. -/
  task? : Option String := none
  deriving DecidableEq, Repr

namespace OptionSpec

/-- The option as it is typed. -/
def label (o : OptionSpec) : String := optionLabel o.id

/-- Is a value to follow the option? -/
def takesValue (o : OptionSpec) : Bool := o.arity != .flag

/-- The letter that the option is typed by (`short`). -/
def short? (o : OptionSpec) : Option Char :=
  match o.id.toList with
  | [c] => some c
  | _ => none

/-- The long names that no other option may have: an id of several characters, and the long name
    (`long_names`). -/
def longNames (o : OptionSpec) : List String :=
  (if o.short?.isNone then [o.id] else []) ++ o.long?.toList

/-- The long name that the option is typed by: its own if it has one, else an id of several
    characters (`to_arg`). -/
def typedLong? (o : OptionSpec) : Option String :=
  (o.long?.or (if o.short?.isNone then some o.id else none)).map withoutDashes

/-- An option as a message shows it: its long name rather than its letter, and a
    place for the value if it takes one. -/
def display (o : OptionSpec) : String :=
  let name := match o.typedLong? with
    | some long => "--" ++ long
    | none => "-" ++ o.id
  if o.takesValue then name ++ " <" ++ o.id ++ ">" else name

theorem short?_eq_some_iff {o : OptionSpec} {c : Char} :
    o.short? = some c ↔ o.id.toList = [c] := by
  unfold short?
  split
  · next d h => simp [h]
  · next h => simpa using fun hc => h c hc

/-- Options with one letter have one id. -/
theorem id_eq_of_short? {o o' : OptionSpec} {c : Char} (h : o.short? = some c)
    (h' : o'.short? = some c) : o.id = o'.id := by
  rw [short?_eq_some_iff] at h h'
  exact String.toList_inj.1 (h.trans h'.symm)

theorem typedLong?_mem_longNames {o : OptionSpec} {l : String} (h : o.typedLong? = some l) :
    ∃ name ∈ o.longNames, l = withoutDashes name := by
  obtain ⟨name, hn, rfl⟩ := Option.map_eq_some_iff.1 h
  refine ⟨name, ?_, rfl⟩
  unfold longNames
  cases hl : o.long? with
  | some l' => simp_all
  | none =>
    rw [hl, Option.none_or] at hn
    split at hn <;> simp_all

end OptionSpec
end LaunchConfig
