import LaunchConfig.Json.Basic

/-!
# JSON on several lines

Each item of a list and each field of an object has a line of its own, indented
by two spaces for every list or object around it. An empty list or object is
written on one line.

Results:

* `renderItems_eq_map`, `renderFields_eq_map`: items and fields are written one
  by one, in order.
-/

namespace LaunchConfig.Json

/-! ## Strings -/

/-- The letter that stands for a character after a backslash. -/
def letter? : Char → Option Char
  | '"' => some '"'
  | '\\' => some '\\'
  | '\x08' => some 'b'
  | '\x0c' => some 'f'
  | '\n' => some 'n'
  | '\r' => some 'r'
  | '\t' => some 't'
  | _ => none

/-- A digit of base sixteen. -/
def hexDigit (n : Nat) : Char :=
  Char.ofNat (if n < 10 then '0'.toNat + n else 'a'.toNat + n - 10)

/-- One character of a string. -/
def escapeChar (c : Char) : List Char :=
  match letter? c with
  | some l => ['\\', l]
  | none =>
    if c.toNat < 0x20 then ['\\', 'u', '0', '0', hexDigit (c.toNat / 16), hexDigit (c.toNat % 16)]
    else [c]

/-- A string between quotes. -/
def quote (s : String) : List Char :=
  '"' :: (s.toList.flatMap escapeChar ++ ['"'])

/-! ## Lists and objects -/

/-- The beginning of a line at a depth. -/
def newline (depth : Nat) : List Char := '\n' :: List.replicate (2 * depth) ' '

/-- Parts between brackets, each on a line of its own. -/
def block (depth : Nat) (opening closing : Char) (parts : List (List Char)) : List Char :=
  if parts.isEmpty then [opening, closing]
  else
    opening :: ((parts.map (newline (depth + 1) ++ ·)).intersperse [',']).flatten
      ++ newline depth ++ [closing]

@[simp] theorem block_nil (depth : Nat) (opening closing : Char) :
    block depth opening closing [] = [opening, closing] := rfl

mutual

/-- The text of a value inside `depth` lists or objects. -/
def render (depth : Nat) : Json → List Char
  | .null => "null".toList
  | .bool b => (if b then "true" else "false").toList
  | .str s => quote s
  | .list items => block depth '[' ']' (renderItems (depth + 1) items)
  | .object fields => block depth '{' '}' (renderFields (depth + 1) fields)

/-- The texts of the items of a list. -/
def renderItems (depth : Nat) : List Json → List (List Char)
  | [] => []
  | item :: rest => render depth item :: renderItems depth rest

/-- The texts of the fields of an object, each with its name. -/
def renderFields (depth : Nat) : List (String × Json) → List (List Char)
  | [] => []
  | (name, value) :: rest =>
    (quote name ++ ':' :: ' ' :: render depth value) :: renderFields depth rest

end

theorem renderItems_eq_map (depth : Nat) (items : List Json) :
    renderItems depth items = items.map (render depth) := by
  induction items with
  | nil => simp [renderItems]
  | cons item rest ih => simp [renderItems, ih]

theorem renderFields_eq_map (depth : Nat) (fields : List (String × Json)) :
    renderFields depth fields
      = fields.map fun f => quote f.1 ++ ':' :: ' ' :: render depth f.2 := by
  induction fields with
  | nil => simp [renderFields]
  | cons field rest ih => simp [renderFields, ih]

/-- The text of a value. -/
def pretty (j : Json) : String := String.ofList (render 0 j)

end LaunchConfig.Json
