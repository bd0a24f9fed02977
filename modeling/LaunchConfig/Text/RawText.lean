import LaunchConfig.Text.Utf8

/-!
# Text from outside

Arguments, environment variables and directory names are lists of bytes that
are usually, but not always, UTF-8. `RawText` keeps the characters as far as the
bytes are readable and the rest as bytes, so that nothing is lost and readable
text is an ordinary list of characters.

Results:

* `text_ofString`, `readable_ofString`: text that is a string is readable, and
  is read back unchanged;
* `ofString_text`: readable text is determined by the string it holds;
* `lossy_of_readable`: readable text is shown as it is.
-/

namespace LaunchConfig

/-- Text as it comes from outside: the characters of its longest beginning that
    is UTF-8, and the bytes from there on. -/
structure RawText where
  chars : List Char
  junk : List UInt8 := []
  deriving DecidableEq, Repr

namespace RawText

/-- Text that is a string. -/
def ofString (s : String) : RawText := ⟨s.toList, []⟩

/-- Text that comes as bytes. -/
def ofBytes (bytes : List UInt8) : RawText :=
  let (chars, junk) := Utf8.decode bytes
  ⟨chars, junk⟩

/-- All of the text is UTF-8. -/
def readable (t : RawText) : Bool := t.junk.isEmpty

/-- The characters before the first byte that cannot be read. -/
def text (t : RawText) : String := String.ofList t.chars

/-- No byte at all. -/
def isEmpty (t : RawText) : Bool := t.chars.isEmpty && t.junk.isEmpty

/-- The whole text, with a mark wherever it is not UTF-8. -/
def lossy (t : RawText) : String := String.ofList (t.chars ++ Utf8.lossy t.junk)

/-- The bytes of `s` after those of `t`. -/
def append (t : RawText) (s : String) : RawText :=
  if t.readable then ⟨t.chars ++ s.toList, []⟩ else ⟨t.chars, t.junk ++ s.toUTF8.toList⟩

/-- Is `/` the last byte? -/
def endsInSlash (t : RawText) : Bool :=
  if t.readable then t.chars.getLast? == some '/' else t.junk.getLast? == some 0x2F

/-- The entry `name` of the directory `t`, which is not empty. -/
def entry (t : RawText) (name : String) : RawText :=
  if t.endsInSlash then t.append name else t.append ("/" ++ name)

/-! ## Readable text and strings -/

@[simp] theorem readable_ofString (s : String) : (ofString s).readable = true := rfl

@[simp] theorem text_ofString (s : String) : (ofString s).text = s := by
  simp [ofString, text]

theorem ofString_text {t : RawText} (h : t.readable = true) : ofString t.text = t := by
  obtain ⟨chars, junk⟩ := t
  simp_all [readable, ofString, text]

theorem ofString_inj {s t : String} : ofString s = ofString t ↔ s = t :=
  ⟨fun h => by simpa using congrArg text h, congrArg ofString⟩

@[simp] theorem lossy_of_readable {t : RawText} (h : t.readable = true) : t.lossy = t.text := by
  obtain ⟨chars, junk⟩ := t
  simp_all [readable, lossy, text]

end RawText
end LaunchConfig
