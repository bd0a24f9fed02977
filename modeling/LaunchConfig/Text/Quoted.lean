import LaunchConfig.Text.Hidden

/-!
# Quoted text

Log records show strings between quotes, and lists and maps of strings between
brackets, so that blanks and quotes inside them can be told from those around.
Characters that cannot be seen are written as numbers.
-/

namespace LaunchConfig.Quoted

/-- The letter that stands for a character after a backslash. -/
def letter? : Char → Option Char
  | '"' => some '"'
  | '\\' => some '\\'
  | '\n' => some 'n'
  | '\t' => some 't'
  | '\r' => some 'r'
  | '\x00' => some '0'
  | _ => none

/-- Quotes, backslashes, line ends, tabs and NUL are written with a backslash and
    a letter, characters that are not shown with their number in hexadecimal digits,
    and all others as they are. -/
def escape (c : Char) : List Char :=
  match letter? c with
  | some l => ['\\', l]
  | none =>
    if Text.hidden c then '\\' :: 'u' :: '\x7b' :: (Nat.toDigits 16 c.toNat ++ ['\x7d']) else [c]

/-- The string between quotes. -/
def quote (s : String) : String :=
  "\"" ++ String.ofList (s.toList.flatMap escape) ++ "\""

/-- A list of strings, each between quotes. -/
def quoteList (items : List String) : String :=
  "[" ++ ", ".intercalate (items.map quote) ++ "]"

/-- Keys and values, each between quotes, in the order given. -/
def quoteMap (entries : List (String × String)) : String :=
  "\x7b" ++ ", ".intercalate (entries.map fun (k, v) => quote k ++ ": " ++ quote v) ++ "\x7d"

example : quoteList ["a b", "c\"d", "\x1b[0m", "e\u0301"]
    = "[\"a b\", \"c\\\"d\", \"\\u\x7b1b\x7d[0m\", \"e\\u\x7b301\x7d\"]" := by decide +kernel

end LaunchConfig.Quoted
