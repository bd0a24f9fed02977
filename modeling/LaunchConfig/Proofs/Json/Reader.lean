import LaunchConfig.Json.Basic

/-!
# A reader of JSON

The reader takes one character after the other and keeps the lists and objects that are still
open. It reads all of JSON but numbers, as no value has any: blanks may stand between the parts
of a text, a character of a string may be escaped in every way, also as two halves, and an
object may have its fields in any order. It stops at the first character that cannot stand
where it does.

Results:

* `Reader.run_append`: a text is read in parts, one after the other.
-/

namespace LaunchConfig.Json

/-- A list or object that is still open. -/
inductive Frame where
  | list (items : List Json)
  | object (fields : List (String × Json))
  /-- An object, and the name of the field whose value is awaited. -/
  | field (fields : List (String × Json)) (name : String)

/-- What is to come next. -/
inductive Awaited where
  /-- A value, or the end of the list if there is no value in it yet. -/
  | value (first : Bool)
  /-- The name of a field, or the end of the object if there is no field in it yet. -/
  | name (first : Bool)
  | colon
  /-- A comma, or the end of what is open. -/
  | more
  /-- Nothing: the value has been read. -/
  | nothing (j : Json)

/-- The part of a text to which the next character belongs. -/
inductive Part where
  /-- None yet. -/
  | between
  /-- A word that stands for a value, of which `rest` is left. -/
  | word (rest : List Char) (value : Json)
  /-- A string. If it ends in half a character, this is the first half. -/
  | string (text : List Char) (half? : Option Nat)
  /-- A string after a backslash. -/
  | escape (text : List Char) (half? : Option Nat)
  /-- A string after a backslash, `u` and some digits. -/
  | digits (text : List Char) (half? : Option Nat) (ds : List Nat)

/-- What has been read of a text. -/
structure Reader where
  part : Part := .between
  frames : List Frame := []
  awaited : Awaited := .value false

namespace Reader

/-! ## Values -/

/-- Put a value into the innermost list or object that is open. -/
def put (frames : List Frame) (j : Json) : Option Reader :=
  match frames with
  | [] => some ⟨.between, [], .nothing j⟩
  | .list items :: outer => some ⟨.between, .list (items ++ [j]) :: outer, .more⟩
  | .field fields name :: outer => some ⟨.between, .object (fields ++ [(name, j)]) :: outer, .more⟩
  | .object _ :: _ => none

/-- Read a value that is no list or object. It may also be the name of a field. -/
def atom (frames : List Frame) (awaited : Awaited) (j : Json) : Option Reader :=
  match awaited, frames, j with
  | .value _, frames, j => put frames j
  | .name _, .object fields :: outer, .str name =>
    some ⟨.between, .field fields name :: outer, .colon⟩
  | _, _, _ => none

/-- Read a character that is a part by itself. -/
def mark (frames : List Frame) (awaited : Awaited) (c : Char) : Option Reader :=
  match c, awaited, frames with
  | '[', .value _, frames => some ⟨.between, .list [] :: frames, .value true⟩
  | '{', .value _, frames => some ⟨.between, .object [] :: frames, .name true⟩
  | ']', .value true, .list items :: outer => put outer (.list items)
  | ']', .more, .list items :: outer => put outer (.list items)
  | '}', .name true, .object fields :: outer => put outer (.object fields)
  | '}', .more, .object fields :: outer => put outer (.object fields)
  | ',', .more, .list items :: outer => some ⟨.between, .list items :: outer, .value false⟩
  | ',', .more, .object fields :: outer => some ⟨.between, .object fields :: outer, .name false⟩
  | ':', .colon, frames => some ⟨.between, frames, .value false⟩
  | _, _, _ => none

/-! ## Strings -/

/-- The character that a letter stands for after a backslash. -/
def escaped? : Char → Option Char
  | '"' => some '"'
  | '\\' => some '\\'
  | '/' => some '/'
  | 'b' => some '\x08'
  | 'f' => some '\x0c'
  | 'n' => some '\n'
  | 'r' => some '\r'
  | 't' => some '\t'
  | _ => none

/-- The value of a digit of base sixteen. -/
def digit? (c : Char) : Option Nat :=
  if '0' ≤ c ∧ c ≤ '9' then some (c.toNat - '0'.toNat)
  else if 'a' ≤ c ∧ c ≤ 'f' then some (c.toNat - 'a'.toNat + 10)
  else if 'A' ≤ c ∧ c ≤ 'F' then some (c.toNat - 'A'.toNat + 10)
  else none

/-- A string and one more character, told by its number of four digits. From `D800` on these
    are first halves of characters, and from `DC00` up to `DFFF` second halves. -/
def unit? (text : List Char) (half? : Option Nat) (n : Nat) : Option Part :=
  match half? with
  | some h =>
    if 0xDC00 ≤ n ∧ n ≤ 0xDFFF then
      some (.string (text ++ [.ofNat (0x10000 + (h - 0xD800) * 0x400 + (n - 0xDC00))]) none)
    else none
  | none =>
    if 0xD800 ≤ n ∧ n ≤ 0xDBFF then some (.string text (some n))
    else if 0xDC00 ≤ n ∧ n ≤ 0xDFFF then none
    else some (.string (text ++ [.ofNat n]) none)

/-- One more character of a string, which does not end with it. -/
def inString? (text : List Char) (half? : Option Nat) (c : Char) : Option Part :=
  if c = '\\' then some (.escape text half?)
  else if half?.isSome ∨ c.toNat < 0x20 then none
  else some (.string (text ++ [c]) none)

/-- The character after a backslash. -/
def inEscape? (text : List Char) (half? : Option Nat) (c : Char) : Option Part :=
  if c = 'u' then some (.digits text half? [])
  else if half?.isSome then none
  else (escaped? c).map fun d => .string (text ++ [d]) none

/-- One more of four digits. -/
def inDigits? (text : List Char) (half? : Option Nat) (ds : List Nat) (c : Char) : Option Part :=
  (digit? c).bind fun d =>
    match ds with
    | [d₁, d₂, d₃] => unit? text half? (((d₁ * 16 + d₂) * 16 + d₃) * 16 + d)
    | ds => some (.digits text half? (ds ++ [d]))

/-! ## One character -/

/-- Is the character one that may stand between values? -/
def isBlank (c : Char) : Bool := c = ' ' || c = '\n' || c = '\r' || c = '\t'

/-- A character that begins a part, or is one. -/
def begin (frames : List Frame) (awaited : Awaited) (c : Char) : Option Reader :=
  match c with
  | '"' => some ⟨.string [] none, frames, awaited⟩
  | 'n' => some ⟨.word ['u', 'l', 'l'] .null, frames, awaited⟩
  | 't' => some ⟨.word ['r', 'u', 'e'] (.bool true), frames, awaited⟩
  | 'f' => some ⟨.word ['a', 'l', 's', 'e'] (.bool false), frames, awaited⟩
  | c => mark frames awaited c

/-- Read one more character. -/
def step (r : Reader) (c : Char) : Option Reader :=
  match r.part with
  | .between => if isBlank c then some r else begin r.frames r.awaited c
  | .word rest j =>
    match rest with
    | [] => none
    | [d] => if c = d then atom r.frames r.awaited j else none
    | d :: rest => if c = d then some { r with part := .word rest j } else none
  | .string text half? =>
    if c = '"' ∧ half? = none then atom r.frames r.awaited (.str (.ofList text))
    else (inString? text half? c).map fun part => { r with part }
  | .escape text half? => (inEscape? text half? c).map fun part => { r with part }
  | .digits text half? ds => (inDigits? text half? ds c).map fun part => { r with part }

/-- Read all characters. -/
def run (r : Reader) (cs : List Char) : Option Reader := cs.foldlM step r

/-- The value, if it has been read to its end. -/
def value? (r : Reader) : Option Json :=
  match r.part, r.awaited with
  | .between, .nothing j => some j
  | _, _ => none

@[simp] theorem run_nil (r : Reader) : r.run [] = some r := rfl

@[simp] theorem run_cons (r : Reader) (c : Char) (cs : List Char) :
    r.run (c :: cs) = (r.step c).bind fun r' => r'.run cs := rfl

theorem run_append (r : Reader) (cs ds : List Char) :
    r.run (cs ++ ds) = (r.run cs).bind fun r' => r'.run ds :=
  List.foldlM_append

end Reader

/-- The value that a text stands for. -/
def read? (s : String) : Option Json := (Reader.run {} s.toList).bind Reader.value?

end LaunchConfig.Json
