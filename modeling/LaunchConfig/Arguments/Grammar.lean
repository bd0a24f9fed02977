import LaunchConfig.Options.Schema

/-!
# What names stand for

The names on a command line are those of the options of a schema, and those of
the flags that ask for help and for the version.

Results:

* `short?_mem`, `long?_mem`: what a name stands for is among the names known;
* `short?_eq_some`, `long?_eq_some`: … and answers to that name;
* `option_mem_names`: the options among the names known are those of the schema.
-/

namespace LaunchConfig

/-- What a name on a command line stands for. -/
inductive Named where
  | option (o : OptionSpec)
  | help
  | version
  deriving DecidableEq, Repr

namespace Named

/-- The names and the description under which it is listed. -/
def spec : Named → OptionSpec
  | .option o => o
  | .help => ⟨"h", some "help", .flag, "Print help information", none⟩
  | .version => ⟨"V", some "version", .flag, "Print version information", none⟩

end Named

/-- A schema, and whether the version can be asked for (`command`). -/
structure Grammar where
  schema : Schema
  hasVersion : Bool := false
  deriving DecidableEq

namespace Grammar

/-- The flags that come with every schema. One whose long name an option is typed by is left out,
    and its letter with it. -/
def generated (g : Grammar) : List Named :=
  (.help :: if g.hasVersion then [.version] else []).filter fun n =>
    !g.schema.options.any fun o => o.typedLong? = n.spec.typedLong?

/-- All that has a name: the options in order, then the generated flags. -/
def names (g : Grammar) : List Named := g.schema.options.map .option ++ g.generated

/-- What a letter stands for. -/
def short? (g : Grammar) (c : Char) : Option Named :=
  g.names.find? fun n => n.spec.short? = some c

/-- What a long name stands for. -/
def long? (g : Grammar) (name : String) : Option Named :=
  g.names.find? fun n => n.spec.typedLong? = some name

theorem short?_mem {g : Grammar} {c : Char} {n : Named} (h : g.short? c = some n) :
    n ∈ g.names :=
  List.mem_of_find?_eq_some h

theorem short?_eq_some {g : Grammar} {c : Char} {n : Named} (h : g.short? c = some n) :
    n.spec.short? = some c := by
  simpa using List.find?_some h

theorem long?_mem {g : Grammar} {name : String} {n : Named} (h : g.long? name = some n) :
    n ∈ g.names :=
  List.mem_of_find?_eq_some h

theorem long?_eq_some {g : Grammar} {name : String} {n : Named} (h : g.long? name = some n) :
    n.spec.typedLong? = some name := by
  simpa using List.find?_some h

theorem option_notMem_generated {g : Grammar} {o : OptionSpec} : .option o ∉ g.generated := by
  cases hv : g.hasVersion <;> simp [generated, hv]

theorem option_mem_names {g : Grammar} {o : OptionSpec} :
    .option o ∈ g.names ↔ o ∈ g.schema.options := by
  simp [names, option_notMem_generated]

end Grammar
end LaunchConfig
