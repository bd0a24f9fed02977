/-!
# Text in lines of bounded width

Words are put on a line as long as they fit. A word that is longer than a line has one
of its own.
-/

namespace LaunchConfig.Text

/-- The parts between separators, of which there is one more than separators. -/
def split (sep : Char) : List Char → List (List Char)
  | [] => [[]]
  | c :: rest =>
    if c = sep then [] :: split sep rest
    else match split sep rest with
      | [] => [[c]]
      | word :: words => (c :: word) :: words

/-- Put words on a line as long as they fit, then on the next. -/
def wrapFrom (width : Nat) (line : List Char) : List (List Char) → List (List Char)
  | [] => [line]
  | word :: words =>
    if line.length + 1 + word.length ≤ width then
      wrapFrom width (line ++ ' ' :: word) words
    else line :: wrapFrom width word words

/-- The lines of a text, each filled with as many words as fit. -/
def wrap (width : Nat) (text : List Char) : List (List Char) :=
  match split ' ' text with
  | [] => []
  | word :: words => wrapFrom width word words

end LaunchConfig.Text
