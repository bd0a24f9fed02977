/-!
# JSON values

The values that a configuration is written with: there are no numbers among
them. An object lists its fields in the order in which they are written.
-/

namespace LaunchConfig

/-- A value without numbers. -/
inductive Json where
  | null
  | bool (b : Bool)
  | str (s : String)
  | list (items : List Json)
  | object (fields : List (String × Json))

namespace Json

/-- A list of strings. -/
def ofStrings (items : List String) : Json := .list (items.map .str)

/-- A string, or `null` in its place. -/
def ofString? : Option String → Json
  | some s => .str s
  | none => .null

/-- An object all of whose fields are strings. -/
def ofEntries (entries : List (String × String)) : Json :=
  .object (entries.map fun (k, v) => (k, .str v))

end Json
end LaunchConfig
