import Mathlib.Data.List.Forall2
import LaunchConfig.Text.RawText

/-!
# The decoder is UTF-8

`Utf8.decode` reads one byte at a time and keeps ranges for the bytes to come. What it
reads to the end is exactly what the characters are encoded as, so text from outside is
readable exactly if its bytes are those of a string, and then it is that string.

The proof goes through the table of well-formed byte sequences (`Sequence`): the bytes
that take the reader through a character (`Completes`) are the rows of the table, and the
rows are the encodings.

Results:

* `Utf8.completes_none_iff`: the bytes that the reader takes for a character;
* `Utf8.decode_eq_nil_iff`: the bytes that are read to their end;
* `RawText.ofBytes_eq_ofString_iff`: the bytes that are read as a string.
-/

namespace LaunchConfig

namespace Utf8

/-! ## The bytes of one character -/

/-- The bytes that take the reader from `p` to the end of the character `c`. -/
inductive Completes : Option Partial → List UInt8 → Char → Prop
  | whole {p : Option Partial} {b : UInt8} {c : Char} :
      read p b = .whole c → Completes p [b] c
  | more {p : Option Partial} {b : UInt8} {q : Partial} {bs : List UInt8} {c : Char} :
      read p b = .more q → Completes (some q) bs c → Completes p (b :: bs) c

variable {p : Option Partial} {held bs : List UInt8} {c : Char}

/-- A character is read off whatever follows it. -/
theorem Completes.decodeFrom (h : Completes p bs c) (held rest : List UInt8) :
    decodeFrom p held (bs ++ rest) = (c :: (decode rest).1, (decode rest).2) := by
  induction h generalizing held with
  | whole h => simp only [List.singleton_append, Utf8.decodeFrom, h, decode]
  | more h _ ih => simp only [List.cons_append, Utf8.decodeFrom, h, ih]

/-- Bytes that are read to their end are none, or begin with those of a character. -/
theorem exists_completes {bytes : List UInt8} {cs : List Char}
    (h : decodeFrom p held bytes = (cs, [])) :
    held = [] ∧ bytes = [] ∧ cs = [] ∨
      ∃ bs c rest cs', Completes p bs c ∧ bytes = bs ++ rest ∧ cs = c :: cs' ∧
        decode rest = (cs', []) := by
  induction bytes generalizing p held with
  | nil =>
    obtain ⟨hcs, hheld⟩ := Prod.mk.inj h
    exact .inl ⟨hheld, rfl, hcs.symm⟩
  | cons b rest ih =>
    right
    unfold decodeFrom at h
    cases hr : read p b with
    | whole c =>
      rw [hr] at h
      obtain ⟨rfl, hleft⟩ := Prod.mk.inj h
      exact ⟨[b], c, rest, _, .whole hr, rfl, rfl, Prod.ext rfl hleft⟩
    | more q =>
      rw [hr] at h
      rcases ih h with ⟨hheld, -⟩ | ⟨bs, c, rest', cs', hbs, rfl, rfl, hrest⟩
      · simp at hheld
      · exact ⟨b :: bs, c, rest', cs', .more hr hbs, rfl, rfl, hrest⟩
    | broken =>
      rw [hr] at h
      simp at h

/-! ## The bytes after the first -/

theorem read_some_eq_whole_iff {n : Nat} {r : UInt8 × UInt8} {rest : List (UInt8 × UInt8)}
    {b : UInt8} :
    read (some ⟨n, r :: rest⟩) b = .whole c ↔
      (r.1 ≤ b ∧ b ≤ r.2) ∧ rest = [] ∧ c = Char.ofNat (n * 64 + (b.toNat - 0x80)) := by
  simp only [read, Partial.next]
  by_cases hb : r.1 ≤ b ∧ b ≤ r.2
  · rw [if_pos hb, and_iff_right hb]
    cases rest with
    | nil => simp [eq_comm]
    | cons r' rest => simp
  · simp [hb]

theorem read_some_eq_more_iff {n : Nat} {r : UInt8 × UInt8} {rest : List (UInt8 × UInt8)}
    {b : UInt8} {q : Partial} :
    read (some ⟨n, r :: rest⟩) b = .more q ↔
      (r.1 ≤ b ∧ b ≤ r.2) ∧ rest ≠ [] ∧ q = ⟨n * 64 + (b.toNat - 0x80), rest⟩ := by
  simp only [read, Partial.next]
  by_cases hb : r.1 ≤ b ∧ b ≤ r.2
  · rw [if_pos hb, and_iff_right hb]
    cases rest with
    | nil => simp
    | cons r' rest => simp [eq_comm]
  · simp [hb]

/-- The bytes that are missing lie in their ranges and add their bits. -/
theorem completes_some_iff {n : Nat} {ranges : List (UInt8 × UInt8)} :
    Completes (some ⟨n, ranges⟩) bs c ↔
      ranges ≠ [] ∧ List.Forall₂ (fun b r => r.1 ≤ b ∧ b ≤ r.2) bs ranges ∧
        c = Char.ofNat (bs.foldl (fun n b => n * 64 + (b.toNat - 0x80)) n) := by
  induction ranges generalizing n bs with
  | nil =>
    refine iff_of_false (fun h => ?_) fun h => h.1 rfl
    cases h with
    | whole h => cases h
    | more h _ => cases h
  | cons r rest ih =>
    rw [and_iff_right (List.cons_ne_nil _ _), List.forall₂_cons_right_iff]
    constructor
    · intro h
      cases h with
      | @whole _ b _ h =>
        obtain ⟨hb, rfl, hc⟩ := read_some_eq_whole_iff.1 h
        exact ⟨⟨b, [], hb, .nil, rfl⟩, hc⟩
      | @more _ b q bs _ h hbs =>
        obtain ⟨hb, -, rfl⟩ := read_some_eq_more_iff.1 h
        obtain ⟨-, hrest, hc⟩ := ih.1 hbs
        refine ⟨⟨b, bs, hb, hrest, rfl⟩, ?_⟩
        rw [List.foldl_cons]
        exact hc
    · rintro ⟨⟨b, bs, hb, hbs, rfl⟩, hc⟩
      rw [List.foldl_cons] at hc
      by_cases hrest : rest = []
      · subst hrest
        cases hbs
        exact .whole (read_some_eq_whole_iff.2 ⟨hb, rfl, hc⟩)
      · exact .more (read_some_eq_more_iff.2 ⟨hb, hrest, rfl⟩) (ih.2 ⟨hrest, hbs, hc⟩)

/-! ## The table of characters -/

/-- A byte after the first of a character. -/
def IsTail (b : UInt8) : Prop := 0x80 ≤ b.toNat ∧ b.toNat ≤ 0xBF

/-- The bytes of a character and the number of the character. The bounds on the second
    byte keep out overlong forms, surrogates and what lies above `U+10FFFF`. -/
inductive Sequence : List UInt8 → Nat → Prop
  | one {a : UInt8} : a.toNat < 0x80 → Sequence [a] a.toNat
  | two {a b : UInt8} : 0xC2 ≤ a.toNat → a.toNat < 0xE0 → IsTail b →
      Sequence [a, b] ((a.toNat - 0xC0) * 64 + (b.toNat - 0x80))
  | three {a b c : UInt8} : 0xE0 ≤ a.toNat → a.toNat < 0xF0 → IsTail b → IsTail c →
      (a.toNat = 0xE0 → 0xA0 ≤ b.toNat) → (a.toNat = 0xED → b.toNat < 0xA0) →
      Sequence [a, b, c] (((a.toNat - 0xE0) * 64 + (b.toNat - 0x80)) * 64 + (c.toNat - 0x80))
  | four {a b c d : UInt8} : 0xF0 ≤ a.toNat → a.toNat ≤ 0xF4 → IsTail b → IsTail c → IsTail d →
      (a.toNat = 0xF0 → 0x90 ≤ b.toNat) → (a.toNat = 0xF4 → b.toNat < 0x90) →
      Sequence [a, b, c, d] ((((a.toNat - 0xF0) * 64 + (b.toNat - 0x80)) * 64
        + (c.toNat - 0x80)) * 64 + (d.toNat - 0x80))

variable {n : Nat}

theorem toNat_ofNat (h : n.isValidChar) : (Char.ofNat n).val.toNat = n := by
  rw [Char.ofNat, dif_pos h]
  rfl

theorem Sequence.encode_eq (h : Sequence bs n) : String.utf8EncodeChar (Char.ofNat n) = bs := by
  have hvalid : n.isValidChar := by
    unfold Nat.isValidChar
    cases h <;> grind [IsTail]
  rw [String.utf8EncodeChar, toNat_ofNat hvalid]
  cases h with
  | one ha =>
    rw [if_pos (by omega)]
    simp
  | two ha ha' hb =>
    unfold IsTail at hb
    rw [if_neg (by omega), if_pos (by omega)]
    simp only [List.cons.injEq, ← UInt8.toNat_inj, UInt8.toNat_ofNat', and_true]
    omega
  | three ha ha' hb hc hlow hsur =>
    unfold IsTail at hb hc
    rw [if_neg (by omega), if_neg (by omega), if_pos (by omega)]
    simp only [List.cons.injEq, ← UInt8.toNat_inj, UInt8.toNat_ofNat', and_true]
    omega
  | four ha ha' hb hc hd hlow hhigh =>
    unfold IsTail at hb hc hd
    rw [if_neg (by omega), if_neg (by omega), if_neg (by omega)]
    simp only [List.cons.injEq, ← UInt8.toNat_inj, UInt8.toNat_ofNat', and_true]
    omega

/-- What the first byte says of the rows that begin with it. -/
inductive Leads (a : UInt8) (x : Reading) : Prop
  | one : a.toNat < 0x80 → x = .whole (Char.ofNat a.toNat) → Leads a x
  | two : 0xC2 ≤ a.toNat → a.toNat < 0xE0 → x = .more ⟨a.toNat - 0xC0, [tail]⟩ → Leads a x
  | three (r : UInt8 × UInt8) : 0xE0 ≤ a.toNat → a.toNat < 0xF0 →
      (∀ b : UInt8, r.1.toNat ≤ b.toNat ∧ b.toNat ≤ r.2.toNat ↔
        IsTail b ∧ (a.toNat = 0xE0 → 0xA0 ≤ b.toNat) ∧ (a.toNat = 0xED → b.toNat < 0xA0)) →
      x = .more ⟨a.toNat - 0xE0, [r, tail]⟩ → Leads a x
  | four (r : UInt8 × UInt8) : 0xF0 ≤ a.toNat → a.toNat ≤ 0xF4 →
      (∀ b : UInt8, r.1.toNat ≤ b.toNat ∧ b.toNat ≤ r.2.toNat ↔
        IsTail b ∧ (a.toNat = 0xF0 → 0x90 ≤ b.toNat) ∧ (a.toNat = 0xF4 → b.toNat < 0x90)) →
      x = .more ⟨a.toNat - 0xF0, [r, tail, tail]⟩ → Leads a x
  | broken : 0x80 ≤ a.toNat ∧ a.toNat < 0xC2 ∨ 0xF4 < a.toNat → x = .broken → Leads a x

theorem leads_lead (a : UInt8) : Leads a (lead a) := by
  have hsub {k n : Nat} {rs : List (UInt8 × UInt8)} (h : a.toNat = k + n) :
      Reading.more ⟨n, rs⟩ = .more ⟨a.toNat - k, rs⟩ := by
    rw [h, Nat.add_sub_cancel_left]
  simp only [lead, UInt8.lt_iff_toNat_lt, ← UInt8.toNat_inj, UInt8.reduceToNat]
  split
  · next h => exact .one h rfl
  split
  · exact .broken (by omega) rfl
  split
  · exact .two (by omega) (by omega) rfl
  split
  · refine .three (0xA0, 0xBF) (by omega) (by omega) (fun b => ?_) (hsub (by omega))
    simp only [IsTail, UInt8.reduceToNat]
    omega
  split
  · refine .three (0x80, 0x9F) (by omega) (by omega) (fun b => ?_) (hsub (by omega))
    simp only [IsTail, UInt8.reduceToNat]
    omega
  split
  · refine .three tail (by omega) (by omega) (fun b => ?_) rfl
    simp only [IsTail, tail, UInt8.reduceToNat]
    omega
  split
  · refine .four (0x90, 0xBF) (by omega) (by omega) (fun b => ?_) (hsub (by omega))
    simp only [IsTail, UInt8.reduceToNat]
    omega
  split
  · refine .four tail (by omega) (by omega) (fun b => ?_) rfl
    simp only [IsTail, tail, UInt8.reduceToNat]
    omega
  split
  · refine .four (0x80, 0x8F) (by omega) (by omega) (fun b => ?_) (hsub (by omega))
    simp only [IsTail, UInt8.reduceToNat]
    omega
  · exact .broken (by omega) rfl

theorem isTail_iff {b : UInt8} : tail.1 ≤ b ∧ b ≤ tail.2 ↔ IsTail b := by
  simp only [tail, UInt8.le_iff_toNat_le, IsTail, UInt8.reduceToNat]

theorem Completes.sequence (h : Completes none bs c) : ∃ n, Sequence bs n ∧ c = Char.ofNat n := by
  cases h with
  | @whole _ a _ h =>
    have hlead : Leads a (.whole c) := h ▸ leads_lead a
    cases hlead with
    | one ha hc => exact ⟨_, .one ha, Reading.whole.inj hc⟩
    | two _ _ hx => cases hx
    | three _ _ _ _ hx => cases hx
    | four _ _ _ _ hx => cases hx
    | broken _ hx => cases hx
  | @more _ a q bs _ h hbs =>
    have hlead : Leads a (.more q) := h ▸ leads_lead a
    cases hlead with
    | one _ hx => cases hx
    | two ha ha' hx =>
      rw [Reading.more.inj hx] at hbs
      simp only [completes_some_iff, List.forall₂_cons_right_iff, List.forall₂_nil_right_iff,
        isTail_iff] at hbs
      obtain ⟨-, ⟨b, _, hb, rfl, rfl⟩, hc⟩ := hbs
      exact ⟨_, .two ha ha' hb, hc⟩
    | three r ha ha' hr hx =>
      rw [Reading.more.inj hx] at hbs
      simp only [completes_some_iff, List.forall₂_cons_right_iff, List.forall₂_nil_right_iff,
        UInt8.le_iff_toNat_le, hr] at hbs
      obtain ⟨-, ⟨b, _, ⟨hb, hlow, hsur⟩, ⟨b', _, hb', rfl, rfl⟩, rfl⟩, hc⟩ := hbs
      exact ⟨_, .three ha ha' hb hb' hlow hsur, hc⟩
    | four r ha ha' hr hx =>
      rw [Reading.more.inj hx] at hbs
      simp only [completes_some_iff, List.forall₂_cons_right_iff, List.forall₂_nil_right_iff,
        UInt8.le_iff_toNat_le, hr] at hbs
      obtain ⟨-, ⟨b, _, ⟨hb, hlow, hhigh⟩, ⟨b', _, hb', ⟨b'', _, hb'', rfl, rfl⟩, rfl⟩, rfl⟩, hc⟩ :=
        hbs
      exact ⟨_, .four ha ha' hb hb' hb'' hlow hhigh, hc⟩
    | broken _ hx => cases hx

theorem Sequence.completes (h : Sequence bs n) : Completes none bs (Char.ofNat n) := by
  cases h with
  | @one a ha =>
    cases leads_lead a with
    | one _ hlead => exact .whole hlead
    | _ => omega
  | @two a b ha ha' hb =>
    cases leads_lead a with
    | two _ _ hlead =>
      exact .more hlead (completes_some_iff.2 ⟨by simp, .cons (isTail_iff.2 hb) .nil, rfl⟩)
    | _ => omega
  | @three a b c ha ha' hb hc hlow hsur =>
    cases leads_lead a with
    | three r _ _ hr hlead =>
      have hb : r.1 ≤ b ∧ b ≤ r.2 := (hr b).2 ⟨hb, hlow, hsur⟩
      exact .more hlead (completes_some_iff.2
        ⟨by simp, .cons hb (.cons (isTail_iff.2 hc) .nil), rfl⟩)
    | _ => omega
  | @four a b c d ha ha' hb hc hd hlow hhigh =>
    cases leads_lead a with
    | four r _ _ hr hlead =>
      have hb : r.1 ≤ b ∧ b ≤ r.2 := (hr b).2 ⟨hb, hlow, hhigh⟩
      exact .more hlead (completes_some_iff.2
        ⟨by simp, .cons hb (.cons (isTail_iff.2 hc) (.cons (isTail_iff.2 hd) .nil)), rfl⟩)
    | _ => omega

/-- The encoding of a character is the row of its number. -/
theorem sequence_encode (c : Char) : Sequence (String.utf8EncodeChar c) c.val.toNat := by
  have hvalid : c.val.toNat < 0xD800 ∨ 0xDFFF < c.val.toNat ∧ c.val.toNat < 0x110000 := c.valid
  rw [String.utf8EncodeChar]
  generalize c.val.toNat = n at *
  have hbyte {m : Nat} (hm : m < 256) : (UInt8.ofNat m).toNat = m := by
    rw [UInt8.toNat_ofNat', Nat.mod_eq_of_lt hm]
  have htail (m : Nat) : IsTail (UInt8.ofNat (m % 0x40 + 0x80)) := by
    rw [IsTail, hbyte (by omega)]
    omega
  split_ifs with h1 h2 h3
  · have h := Sequence.one (a := .ofNat n) (by rw [hbyte] <;> omega)
    rwa [hbyte (by omega)] at h
  · have h := Sequence.two (a := .ofNat (n / 64 % 0x20 + 0xC0)) (by rw [hbyte] <;> omega)
      (by rw [hbyte] <;> omega) (htail n)
    rw [hbyte (by omega), hbyte (by omega)] at h
    convert h using 1
    omega
  · have h := Sequence.three (a := .ofNat (n / 4096 % 0x10 + 0xE0)) (by rw [hbyte] <;> omega)
      (by rw [hbyte] <;> omega) (htail (n / 64)) (htail n)
      (by rw [hbyte (by omega), hbyte (by omega)]; omega)
      (by rw [hbyte (by omega), hbyte (by omega)]; omega)
    rw [hbyte (by omega), hbyte (by omega), hbyte (by omega)] at h
    convert h using 1
    omega
  · have h := Sequence.four (a := .ofNat (n / 262144 % 0x08 + 0xF0)) (by rw [hbyte] <;> omega)
      (by rw [hbyte] <;> omega) (htail (n / 4096)) (htail (n / 64)) (htail n)
      (by rw [hbyte (by omega), hbyte (by omega)]; omega)
      (by rw [hbyte (by omega), hbyte (by omega)]; omega)
    rw [hbyte (by omega), hbyte (by omega), hbyte (by omega), hbyte (by omega)] at h
    convert h using 1
    omega

/-! ## All the bytes -/

/-- The bytes up to the end of a character are its encoding. -/
theorem completes_none_iff : Completes none bs c ↔ bs = String.utf8EncodeChar c := by
  constructor
  · intro h
    obtain ⟨n, hn, rfl⟩ := h.sequence
    exact hn.encode_eq.symm
  · rintro rfl
    have h := (sequence_encode c).completes
    rwa [show Char.ofNat c.val.toNat = c from Char.ofNat_toNat c] at h

/-- What is read to its end as characters is their encoding. -/
theorem decode_eq_nil_iff {bytes : List UInt8} {cs : List Char} :
    decode bytes = (cs, []) ↔ bytes = cs.flatMap String.utf8EncodeChar := by
  constructor
  · intro h
    induction cs generalizing bytes with
    | nil =>
      rcases exists_completes h with ⟨-, rfl, -⟩ | ⟨_, _, _, _, _, _, hcs, _⟩
      · rfl
      · cases hcs
    | cons c cs ih =>
      rcases exists_completes h with ⟨-, -, hcs⟩ | ⟨bs, c', rest, cs', hbs, rfl, hcs, hrest⟩
      · cases hcs
      · cases hcs
        rw [List.flatMap_cons, ← completes_none_iff.1 hbs, ← ih hrest]
  · rintro rfl
    induction cs with
    | nil => rfl
    | cons c cs ih =>
      rw [List.flatMap_cons, decode, (completes_none_iff.2 rfl).decodeFrom, ih]

end Utf8

namespace RawText

theorem toList_toUTF8 (s : String) :
    s.toUTF8.data.toList = s.toList.flatMap String.utf8EncodeChar := by
  have h : s.toByteArray = s.toList.utf8Encode := by
    rw [← String.toByteArray_ofList, String.ofList_toList]
  rw [String.toUTF8_eq_toByteArray, h, List.utf8Encode, List.data_toByteArray, List.toList_toArray]

/-- Bytes are read as a string exactly if they are its UTF-8 bytes. -/
theorem ofBytes_eq_ofString_iff {bytes : List UInt8} {s : String} :
    ofBytes bytes = ofString s ↔ bytes = s.toUTF8.data.toList := by
  rw [toList_toUTF8, ← Utf8.decode_eq_nil_iff, ofBytes, ofString, RawText.mk.injEq, Prod.ext_iff]

theorem map_ofBytes_eq_iff {args : List (List UInt8)} {ts : List String} :
    args.map ofBytes = ts.map ofString ↔ args = ts.map (·.toUTF8.data.toList) := by
  induction args generalizing ts with
  | nil => cases ts <;> simp
  | cons a args ih =>
    cases ts with
    | nil => simp
    | cons t ts => simp only [List.map_cons, List.cons.injEq, ofBytes_eq_ofString_iff, ih]

end RawText
end LaunchConfig
