/-!
# UTF-8, one byte at a time

A byte either completes a character, begins or continues one, or cannot stand
where it stands. `read` says which; the two readers of a whole list of bytes
are built on it.

Results:

* `decode_suffix`: the bytes that `decode` leaves over are the end of the bytes
  given to it.
-/

namespace LaunchConfig.Utf8

/-- A character of which some bytes have been read: the value of the bits read
    so far, and the ranges in which the bytes still to come must lie. -/
structure Partial where
  bits : Nat
  ranges : List (UInt8 × UInt8)
  deriving DecidableEq, Repr

/-- What one more byte makes of the bytes before it. -/
inductive Reading where
  /-- The byte completes a character. -/
  | whole (c : Char)
  /-- More bytes have to follow. -/
  | more (p : Partial)
  /-- No character has this byte here. -/
  | broken
  deriving DecidableEq, Repr

/-! ## One byte -/

/-- The range of a byte inside a character. -/
def tail : UInt8 × UInt8 := (0x80, 0xBF)

/-- The first byte of a character. The narrower ranges after `0xE0`, `0xED`,
    `0xF0` and `0xF4` keep out overlong forms, surrogates and what lies above
    `U+10FFFF`. -/
def lead (b : UInt8) : Reading :=
  if b < 0x80 then .whole (Char.ofNat b.toNat)
  else if b < 0xC2 then .broken
  else if b < 0xE0 then .more ⟨b.toNat - 0xC0, [tail]⟩
  else if b = 0xE0 then .more ⟨0, [(0xA0, 0xBF), tail]⟩
  else if b = 0xED then .more ⟨0xD, [(0x80, 0x9F), tail]⟩
  else if b < 0xF0 then .more ⟨b.toNat - 0xE0, [tail, tail]⟩
  else if b = 0xF0 then .more ⟨0, [(0x90, 0xBF), tail, tail]⟩
  else if b < 0xF4 then .more ⟨b.toNat - 0xF0, [tail, tail, tail]⟩
  else if b = 0xF4 then .more ⟨4, [(0x80, 0x8F), tail, tail]⟩
  else .broken

/-- A further byte of a character. -/
def Partial.next (p : Partial) (b : UInt8) : Reading :=
  match p.ranges with
  | [] => .broken
  | (low, high) :: rest =>
    if low ≤ b ∧ b ≤ high then
      let bits := p.bits * 64 + (b.toNat - 0x80)
      if rest.isEmpty then .whole (Char.ofNat bits) else .more ⟨bits, rest⟩
    else .broken

/-- A byte after the part of a character, if any, that stands before it. -/
def read : Option Partial → UInt8 → Reading
  | none, b => lead b
  | some p, b => p.next b

/-! ## The readable beginning of a list of bytes -/

/-- Read as far as the bytes are UTF-8. `held` are the bytes of the character
    that is being read; they are left over when it does not complete. -/
def decodeFrom : Option Partial → List UInt8 → List UInt8 → List Char × List UInt8
  | _, held, [] => ([], held)
  | p, held, b :: rest =>
    match read p b with
    | .whole c =>
      let (chars, left) := decodeFrom none [] rest
      (c :: chars, left)
    | .more q => decodeFrom (some q) (held ++ [b]) rest
    | .broken => ([], held ++ b :: rest)

/-- The characters of the longest beginning that is UTF-8, and the bytes that
    follow it. -/
def decode (bytes : List UInt8) : List Char × List UInt8 :=
  decodeFrom none [] bytes

@[simp] theorem decode_nil : decode [] = ([], []) := rfl

theorem decodeFrom_suffix (p : Option Partial) (held bytes : List UInt8) :
    (decodeFrom p held bytes).2 <:+ held ++ bytes := by
  induction bytes generalizing p held with
  | nil => simp [decodeFrom]
  | cons b rest ih =>
    unfold decodeFrom
    split
    · exact (ih none []).trans ⟨held ++ [b], by simp⟩
    · next q _ => simpa using ih (some q) (held ++ [b])
    · exact List.suffix_rfl

/-- The bytes left over are the end of the bytes given. -/
theorem decode_suffix (bytes : List UInt8) : (decode bytes).2 <:+ bytes :=
  decodeFrom_suffix none [] bytes

/-! ## Text with marks for what cannot be read -/

/-- The mark that stands for bytes that are not UTF-8. -/
def mark : Char := '\uFFFD'

/-- Read all bytes. Each longest beginning of a character that is not completed,
    and each byte that begins none, gives one mark. -/
def lossyFrom : Option Partial → List UInt8 → List Char
  | none, [] => []
  | some _, [] => [mark]
  | none, b :: rest =>
    match lead b with
    | .whole c => c :: lossyFrom none rest
    | .more q => lossyFrom (some q) rest
    | .broken => mark :: lossyFrom none rest
  | some p, b :: rest =>
    match p.next b with
    | .whole c => c :: lossyFrom none rest
    | .more q => lossyFrom (some q) rest
    | .broken =>
      mark :: match lead b with
        | .whole c => c :: lossyFrom none rest
        | .more q => lossyFrom (some q) rest
        | .broken => mark :: lossyFrom none rest

/-- The text of any bytes, with a mark wherever they are not UTF-8. -/
def lossy (bytes : List UInt8) : List Char :=
  lossyFrom none bytes

@[simp] theorem lossy_nil : lossy [] = [] := rfl

/-- A truncated character gives one mark and the byte after it is read afresh. -/
example : lossy [0xE2, 0x82, 0x41, 0xFF, 0xC3, 0xA9] = [mark, 'A', mark, 'é'] := by decide

/-- A surrogate gives a mark for each of its bytes. -/
example : lossy [0xED, 0xA0, 0x80] = [mark, mark, mark] := by decide

example : decode [0x61, 0xF0, 0x9F, 0x98, 0x80, 0xE2, 0x82] = (['a', '😀'], [0xE2, 0x82]) := by
  decide

end LaunchConfig.Utf8
