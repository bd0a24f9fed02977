/-!
# The first paragraph of a text

A message ends where its first empty line begins; what follows is advice.
-/

namespace LaunchConfig.Text

/-- White space, as Unicode has it. -/
def isBlank (c : Char) : Bool :=
  let n := c.toNat
  (9 ≤ n && n ≤ 13) || (0x2000 ≤ n && n ≤ 0x200A)
    || [0x20, 0x85, 0xA0, 0x1680, 0x2028, 0x2029, 0x202F, 0x205F, 0x3000].contains n

/-- The characters up to the last that is not white space. -/
def trimEnd : List Char → List Char
  | [] => []
  | c :: rest =>
    match trimEnd rest with
    | [] => if isBlank c then [] else [c]
    | rest' => c :: rest'

/-- The characters before the first empty line. -/
def beforeEmptyLine : List Char → List Char
  | '\n' :: '\n' :: _ => []
  | c :: rest => c :: beforeEmptyLine rest
  | [] => []

/-- The text before the first empty line, without white space at its end. -/
def firstParagraph (s : String) : String :=
  String.ofList (trimEnd (beforeEmptyLine s.toList))

example : firstParagraph "one\ntwo \n\nthree" = "one\ntwo" := by decide

end LaunchConfig.Text
