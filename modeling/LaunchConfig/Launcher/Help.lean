import LaunchConfig.Arguments.Grammar
import LaunchConfig.Text.Wrap

/-!
# The help text

Help lists all that has a name, by name, with a description that begins in one
column and is broken before column 100.
-/

namespace LaunchConfig
namespace Help

/-- The columns that help may take. -/
def width : Nat := 100

/-- Where a name is listed: letters before the long names that begin with them,
    and a small letter before its capital. -/
def sortKey (o : OptionSpec) : String :=
  match o.short? with
  | some c => String.ofList [c.toLower, if c.isUpper then '1' else '0']
  | none => o.typedLong?.getD ""

/-- How a name is typed: its letter, its long name, and the place of its value. -/
def usage (o : OptionSpec) : List Char :=
  let long := (o.typedLong?.map fun l => "--" ++ l).toList
  let names := match o.short? with
    | some _ => ", ".intercalate (("-" ++ o.id) :: long)
    | none => "    " ++ "".intercalate long
  (if o.takesValue then names ++ " <" ++ o.id ++ ">" else names).toList

/-- A number of blanks. -/
def indent (n : Nat) : List Char := List.replicate n ' '

/-- A line of a list, and further lines if the description is broken. `column` is
    where descriptions begin. -/
def row (column : Nat) (o : OptionSpec) : List (List Char) :=
  let label := indent 4 ++ usage o
  match Text.wrap (width - column) o.description.toList with
  | [] => [label]
  | line :: lines =>
    (label ++ indent (column - label.length) ++ line) :: lines.map (indent column ++ ·)

/-- All that has a name, in the order of the list. -/
def sorted (g : Grammar) : List OptionSpec :=
  (g.names.map Named.spec).mergeSort fun a b => sortKey a ≤ sortKey b

/-- The list of all that has a name. -/
def rows (g : Grammar) : List (List Char) :=
  let specs := sorted g
  let column := 8 + specs.foldl (fun n o => max n (usage o).length) 0
  specs.flatMap (row column)

/-- What help says before its list. -/
structure Heading where
  name : String
  version : String
  about : String
  /-- The place of the extra arguments, and what they are. -/
  extra : String
  extraDescription : String

/-- The name and the version of the program. -/
def Heading.title (h : Heading) : String := h.name ++ " " ++ h.version

/-- The whole text. -/
def text (h : Heading) (g : Grammar) : String :=
  "\n".intercalate
    ([h.title, h.about, "", "USAGE:", "    " ++ h.name ++ " [OPTIONS] [" ++ h.extra ++ "]...", "",
        "ARGS:", "    <" ++ h.extra ++ ">...    " ++ h.extraDescription, "", "OPTIONS:"]
      ++ (rows g).map String.ofList ++ [""])

end Help
end LaunchConfig
