import LaunchConfig.Dict
import LaunchConfig.Options.Spec
import LaunchConfig.Record

/-!
# Schemas

A schema holds the options that a command line may give, under their ids, and the ids in
the order in which they were registered. Registration refuses an option whose names are
reserved or taken, so that a name on a command line has at most one meaning.

Results:

* `register_eq_ok_iff`: an option is registered exactly when nothing is wrong
  with its names;
* `get?_add`: what a new option does to the look-up;
* `error?_eq_none_iff`: nothing is refused exactly when a whole list is registered.
-/

namespace LaunchConfig

/-- Why an option cannot be registered. -/
inductive SchemaError where
  /-- The id has no characters. -/
  | emptyId
  /-- A name that belongs to the help or the version flag. -/
  | reserved (name : String)
  /-- The id is taken. -/
  | duplicateId (id : String)
  /-- The long name is taken. -/
  | duplicateLong (name : String)
  deriving DecidableEq, Repr

namespace SchemaError

/-- What is reported of an option that cannot be registered (`register`). -/
def message : SchemaError → String
  | .emptyId => "empty option id"
  | .reserved name => "option name '" ++ name ++ "' is reserved"
  | .duplicateId id => "option '" ++ optionLabel id ++ "' registered twice"
  | .duplicateLong name => "long option '--" ++ name ++ "' registered twice"

end SchemaError

/-- The names of the help and the version flag. -/
def reservedNames : List String := ["h", "help", "V", "version"]

/-- Options under their ids, and the ids in the order of registration (`OptionSchema`). -/
structure Schema where
  byId : Dict OptionSpec := ∅
  ids : List String := []
  deriving DecidableEq

namespace Schema

/-- No option is registered. -/
def empty : Schema := {}

instance : EmptyCollection Schema := ⟨empty⟩
instance : Inhabited Schema := ⟨empty⟩

/-- The number of options (`len`). -/
def size (s : Schema) : Nat := s.byId.size

/-- The option with an id (`get`). -/
def get? (s : Schema) (id : String) : Option OptionSpec := s.byId.find? id

/-- Is there an option with the id? -/
def contains (s : Schema) (id : String) : Bool := s.byId.contains id

/-- The options in the order of registration (`iter`). -/
def options (s : Schema) : List OptionSpec := s.ids.filterMap s.get?

/-- Is the long name taken by an option? -/
def hasLong (s : Schema) (name : String) : Bool :=
  s.byId.entries.any fun e => name ∈ e.2.longNames

/-! ## Registration -/

/-- What is wrong with the names of an option that is to be registered. -/
def refusal? (s : Schema) (o : OptionSpec) : Option SchemaError :=
  if o.id.isEmpty then some .emptyId
  else if let some name := (o.id :: o.longNames).find? (· ∈ reservedNames) then
    some (.reserved name)
  else if s.contains o.id then some (.duplicateId o.id)
  else (o.longNames.find? s.hasLong).map .duplicateLong

/-- The schema with one more option, whatever its names are. -/
def add (s : Schema) (o : OptionSpec) : Schema := ⟨s.byId.insert o.id o, s.ids ++ [o.id]⟩

/-- Add an option whose names are not reserved and not taken (`register`). -/
def register (s : Schema) (o : OptionSpec) : Except SchemaError Schema :=
  match s.refusal? o with
  | some e => .error e
  | none => .ok (s.add o)

/-- What registering a list of options comes to. -/
structure Registration where
  schema : Schema
  /-- The options that were registered, in order. -/
  registered : List OptionSpec
  /-- Why the option after them was refused. -/
  error? : Option SchemaError
  deriving DecidableEq

/-- Register options up to the first that is refused. -/
def registerAll (s : Schema) : List OptionSpec → Registration
  | [] => ⟨s, [], none⟩
  | o :: rest =>
    match s.register o with
    | .error e => ⟨s, [], some e⟩
    | .ok s' =>
      let r := s'.registerAll rest
      ⟨r.schema, o :: r.registered, r.error?⟩

/-- A record for each option that was registered. -/
def Registration.records (r : Registration) : List Record :=
  r.registered.map fun o => ⟨.trace, "commons::options", "registered option " ++ o.label⟩

/-- The schema that has just these options, as far as they can be registered. -/
def ofOptions (options : List OptionSpec) : Schema := (registerAll ∅ options).schema

/-! ## Names that can be told apart -/

/-- A command line can be read with the options. It cannot if one of them has a dash as its
    letter or the name of the positional arguments as its id, nor if two of them are typed by
    one long name. Registration does not ask for this: it compares long names as they are given,
    with the dashes at their beginning. -/
def Parsable (s : Schema) : Prop :=
  (∀ o ∈ s.options, o.id ≠ "-" ∧ o.id ≠ positionalName) ∧
    (s.options.filterMap OptionSpec.typedLong?).Nodup

instance (s : Schema) : Decidable s.Parsable := inferInstanceAs (Decidable (_ ∧ _))

/-! ## What registration accepts -/

theorem register_eq_ok_iff {s s' : Schema} {o : OptionSpec} :
    s.register o = .ok s' ↔ s.refusal? o = none ∧ s' = s.add o := by
  cases h : s.refusal? o <;> simp [register, h, eq_comm]

theorem register_eq_error_iff {s : Schema} {o : OptionSpec} {e : SchemaError} :
    s.register o = .error e ↔ s.refusal? o = some e := by
  cases h : s.refusal? o <;> simp [register, h]

/-- An id that is taken is refused. -/
theorem contains_of_refusal? {s : Schema} {o : OptionSpec} (h : s.refusal? o = none) :
    s.contains o.id = false := by
  unfold refusal? at h
  split at h
  · cases h
  · split at h
    · cases h
    · cases hid : s.contains o.id <;> simp_all

theorem contains_eq_isSome (s : Schema) (id : String) : s.contains id = (s.get? id).isSome := rfl

theorem get?_add (s : Schema) (o : OptionSpec) (id : String) :
    (s.add o).get? id = if id = o.id then some o else s.get? id :=
  Dict.find?_insert s.byId o.id o id

/-! ## Lists of options -/

/-- Nothing is refused exactly when the whole list is registered. -/
theorem error?_eq_none_iff (s : Schema) (options : List OptionSpec) :
    (s.registerAll options).error? = none ↔ (s.registerAll options).registered = options := by
  induction options generalizing s with
  | nil => simp [registerAll]
  | cons o rest ih =>
    unfold registerAll
    split <;> simp_all

end Schema
end LaunchConfig
