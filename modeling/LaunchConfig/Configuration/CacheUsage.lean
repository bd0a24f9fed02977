/-!
# Use of the script cache

A text names a way of using the cache if it is the name of that way up to the case
of its letters.
-/

namespace LaunchConfig

/-- The same text, but for the case of ASCII letters. -/
def sameUpToCase (a b : String) : Bool :=
  a.toList.map Char.toLower == b.toList.map Char.toLower

/-- How compiled scripts are cached. -/
inductive CacheUsage where
  /-- Cached scripts are used while they are up to date. -/
  | on
  /-- Every script is compiled again. -/
  | rebuild
  deriving DecidableEq, Repr

namespace CacheUsage

instance : Inhabited CacheUsage := ⟨.on⟩

/-- All ways, in the order in which help lists them (`VALUES`). -/
def all : List CacheUsage := [.rebuild, .on]

/-- The name by which a way is written and given (`as_str`). -/
def name : CacheUsage → String
  | .on => "on"
  | .rebuild => "rebuild"

/-- The way that a text names (`from_str`). -/
def ofText? (text : String) : Option CacheUsage :=
  all.find? fun u => sameUpToCase u.name text

/-- What is said of a text that names none (`from_str`). -/
def unknownMessage (text : String) : String :=
  "unknown cache usage '" ++ text ++ "', valid values are: "
    ++ ", ".intercalate (all.map fun u => "'" ++ u.name ++ "'")

theorem ofText?_name (u : CacheUsage) : ofText? u.name = some u := by
  cases u <;> decide

end CacheUsage
end LaunchConfig
