import LaunchConfig.Arguments.CommandLine
import LaunchConfig.Arguments.Reading

/-!
# From arguments to a command line

Arguments that can be read to their end form a command line if all of their
text is UTF-8, each option that takes a value has one, and no option of a single
value is given twice.

Results:

* `parse_eq_ok_iff`: the arguments that form a command line, and which;
* `parse_of_not_parsable`: where no arguments do.
-/

namespace LaunchConfig

/-! ## The command line of a list of items -/

namespace CommandLine

/-- Add what an item says (`from_matches`). A task that an option asks for is an extra argument
    once, where the flag is given first or the option gets its first value. -/
def add (p : CommandLine) : Item → CommandLine
  | .positional t => p.withExtra [t.text]
  | .flag o => (p.withOption o.id).withExtra (if p.has o.id then [] else o.task?.toList)
  | .attached o v | .detached o v =>
    (p.withValues o.id [v.text]).withExtra
      (if p.values o.id = [] then o.task?.toList else [])
  | .bare o => p.withOption o.id

/-- Add what items say, in turn. -/
def addAll (p : CommandLine) (items : List Item) : CommandLine := items.foldl add p

/-- The command line that items make up (`from_matches`). -/
def ofItems (items : List Item) : CommandLine := addAll ∅ items

@[simp] theorem addAll_nil (p : CommandLine) : p.addAll [] = p := rfl

@[simp] theorem addAll_cons (p : CommandLine) (i : Item) (items : List Item) :
    p.addAll (i :: items) = (p.add i).addAll items := rfl

end CommandLine

/-! ## What may be wrong with the items -/

namespace Item

/-- Does the option have a value in any of its occurrences? -/
def hasValue (items : List Item) (o : OptionSpec) : Bool :=
  items.any fun i => i.text?.isSome && i.option?.any (·.id = o.id)

/-- How often the option occurs, with or without a value. -/
def occurrences (items : List Item) (o : OptionSpec) : Nat :=
  items.countP fun i => i.option?.any (·.id = o.id)

/-- What is wrong with the occurrences of an option. -/
def misuse? (items : List Item) (o : OptionSpec) : Option UsageError :=
  if o.takesValue && !hasValue items o then some (.missingValue o)
  else if o.arity = .single ∧ 1 < occurrences items o then some (.repeatedOption o)
  else none

/-- The first thing that is wrong with complete items. `awaited?` is the option
    that still awaited a value at the end. -/
def fault? (awaited? : Option OptionSpec) (items : List Item) : Option UsageError :=
  if !items.all readable then some .invalidUtf8
  else match awaited?.filter fun o => !hasValue items o with
    | some o => some (.missingValue o)
    | none => (items.filterMap option?).findSome? (misuse? items)

/-- The items before those whose text is looked at only when more is read: a
    value in an argument of its own that stands last, or else the positional
    arguments that stand last. -/
def settled (items : List Item) : List Item :=
  match items.getLast? with
  | some (.detached _ _) => items.dropLast
  | _ => (items.reverse.dropWhile isPositional).reverse

end Item

/-- The items whose text has been looked at when reading halts. -/
def Halt.lookedAt (h : Halt) (items : List Item) : List Item :=
  match h with
  | .usage _ | .crash => Item.settled items
  | .help | .version => items

/-! ## Parsing -/

/-- The items of arguments that were read to their end, with the option that
    awaits its value in vain. -/
def Mode.complete (m : Mode) (items : List Item) : List Item := items ++ m.leftover

/-- The command line of what was read, or why there is none. -/
def conclude : Yield → Except Halt CommandLine
  | (items, .error halt) =>
    if (halt.lookedAt items).all Item.readable then .error halt
    else .error (.usage .invalidUtf8)
  | (items, .ok m) =>
    match Item.fault? m.awaited? (m.complete items) with
    | some e => .error (.usage e)
    | none => .ok (.ofItems (m.complete items))

/-- Read arguments as a command line. Where the names of the options cannot be told apart this
    crashes, whatever the arguments are. -/
def Grammar.parse (g : Grammar) (args : List RawText) : Except Halt CommandLine :=
  if g.schema.Parsable then conclude (g.scan .ready args) else .error .crash

/-- Read arguments as a command line of the options of a schema (`parse`). -/
def Schema.parse (s : Schema) (args : List RawText) : Except Halt CommandLine :=
  Grammar.parse ⟨s, false⟩ args

theorem conclude_eq_ok_iff {y : Yield} {p : CommandLine} :
    conclude y = .ok p ↔
      ∃ m, y.2 = .ok m ∧ Item.fault? m.awaited? (m.complete y.1) = none ∧
        p = .ofItems (m.complete y.1) := by
  obtain ⟨items, halt | m⟩ := y
  · cases h : (halt.lookedAt items).all Item.readable <;> simp [conclude, h]
  · cases h : Item.fault? m.awaited? (m.complete items) <;> simp [conclude, h, eq_comm]

namespace Grammar

variable {g : Grammar}

theorem parse_of_parsable (h : g.schema.Parsable) (args : List RawText) :
    g.parse args = conclude (g.scan .ready args) :=
  if_pos h

theorem parse_of_not_parsable (h : ¬ g.schema.Parsable) (args : List RawText) :
    g.parse args = .error .crash :=
  if_neg h

theorem parsable_of_parse {args : List RawText} {p : CommandLine} (h : g.parse args = .ok p) :
    g.schema.Parsable := by
  by_cases hp : g.schema.Parsable
  · exact hp
  · rw [parse_of_not_parsable hp] at h
    cases h

theorem parse_eq_ok_iff (h : g.schema.Parsable) {args : List RawText} {p : CommandLine} :
    g.parse args = .ok p ↔
      ∃ items m, g.scan .ready args = (items, .ok m) ∧
        Item.fault? m.awaited? (m.complete items) = none ∧ p = .ofItems (m.complete items) := by
  rw [parse_of_parsable h, conclude_eq_ok_iff]
  constructor
  · rintro ⟨m, hm, h⟩
    exact ⟨_, m, Prod.ext rfl hm, h⟩
  · rintro ⟨items, m, hs, h⟩
    exact ⟨m, by rw [hs], by rw [hs]; exact h⟩

end Grammar

end LaunchConfig
