import LaunchConfig.Dict

/-!
# Command lines

A command line that has been read: the options that are present, each with its
values in order, and the extra arguments, which name the tasks to run.

Results:

* `values_withValues`, `has_withValues`, `has_withOption`, …: what each step of
  building a command line does to what can be asked of it;
* `ext_values`: a command line is determined by the options that are present,
  their values and the extra arguments.
-/

namespace LaunchConfig

/-- Options by id, with their values, and extra arguments (`ParsedCommandLine`). -/
@[ext] structure CommandLine where
  options : Dict (List String) := ∅
  extra : List String := []
  deriving DecidableEq

namespace CommandLine

/-- Nothing is given. -/
def empty : CommandLine := {}

instance : EmptyCollection CommandLine := ⟨empty⟩
instance : Inhabited CommandLine := ⟨empty⟩

/-! ## Questions -/

/-- Is the option present (`has_option`)? -/
def has (p : CommandLine) (id : String) : Bool := p.options.contains id

/-- The values of an option, in order. -/
def values (p : CommandLine) (id : String) : List String := (p.options.find? id).getD []

/-- The last value of an option (`value`). -/
def value? (p : CommandLine) (id : String) : Option String := (p.values id).getLast?

/-- How many options are present (`option_count`). -/
def optionCount (p : CommandLine) : Nat := p.options.size

/-! ## Building -/

/-- Make the option present and give it more values (`with_values`). -/
def withValues (p : CommandLine) (id : String) (vs : List String) : CommandLine :=
  { p with options := p.options.upsert id fun old => old.getD [] ++ vs }

/-- Make the option present (`with_option`). -/
def withOption (p : CommandLine) (id : String) : CommandLine := p.withValues id []

/-- Give more extra arguments (`with_extra_arguments`). -/
def withExtra (p : CommandLine) (args : List String) : CommandLine :=
  { p with extra := p.extra ++ args }

/-- One step of building a command line. -/
inductive Step where
  | option (id : String)
  | values (id : String) (vs : List String)
  | extra (args : List String)
  deriving DecidableEq, Repr

/-- The command line after one more step. -/
def apply (p : CommandLine) : Step → CommandLine
  | .option id => p.withOption id
  | .values id vs => p.withValues id vs
  | .extra args => p.withExtra args

/-- The command line that is built by steps in turn. -/
def build (steps : List Step) : CommandLine := steps.foldl apply ∅

/-! ## What the steps do -/

@[simp] theorem has_empty (id : String) : (∅ : CommandLine).has id = false := rfl

@[simp] theorem values_empty (id : String) : (∅ : CommandLine).values id = [] := rfl

@[simp] theorem extra_empty : (∅ : CommandLine).extra = [] := rfl

theorem has_withValues (p : CommandLine) (id : String) (vs : List String) (j : String) :
    (p.withValues id vs).has j = (decide (j = id) || p.has j) := by
  by_cases h : j = id <;> simp [has, withValues, Dict.contains, Dict.find?_upsert, h]

theorem values_withValues (p : CommandLine) (id : String) (vs : List String) (j : String) :
    (p.withValues id vs).values j = p.values j ++ if j = id then vs else [] := by
  by_cases h : j = id <;> simp [values, withValues, Dict.find?_upsert, h]

@[simp] theorem extra_withValues (p : CommandLine) (id : String) (vs : List String) :
    (p.withValues id vs).extra = p.extra := rfl

theorem has_withOption (p : CommandLine) (id j : String) :
    (p.withOption id).has j = (decide (j = id) || p.has j) :=
  has_withValues p id [] j

@[simp] theorem values_withOption (p : CommandLine) (id j : String) :
    (p.withOption id).values j = p.values j := by
  simp [withOption, values_withValues]

@[simp] theorem extra_withOption (p : CommandLine) (id : String) :
    (p.withOption id).extra = p.extra := rfl

@[simp] theorem has_withExtra (p : CommandLine) (args : List String) (j : String) :
    (p.withExtra args).has j = p.has j := rfl

@[simp] theorem values_withExtra (p : CommandLine) (args : List String) (j : String) :
    (p.withExtra args).values j = p.values j := rfl

@[simp] theorem extra_withExtra (p : CommandLine) (args : List String) :
    (p.withExtra args).extra = p.extra ++ args := rfl

/-- An option that is absent has no values. -/
theorem values_of_not_has {p : CommandLine} {id : String} (h : p.has id = false) :
    p.values id = [] := by
  simp only [has, Dict.contains, Option.isSome_eq_false_iff, Option.isNone_iff_eq_none] at h
  simp [values, h]

theorem find?_options (p : CommandLine) (id : String) :
    p.options.find? id = if p.has id then some (p.values id) else none := by
  cases h : p.options.find? id <;> simp [has, values, Dict.contains, h]

/-- Command lines that answer all questions alike are equal. -/
theorem ext_values {p q : CommandLine} (hh : ∀ id, p.has id = q.has id)
    (hv : ∀ id, p.values id = q.values id) (he : p.extra = q.extra) : p = q := by
  refine CommandLine.ext (Dict.ext fun id => ?_) he
  rw [find?_options, find?_options, hh, hv]

end CommandLine
end LaunchConfig
