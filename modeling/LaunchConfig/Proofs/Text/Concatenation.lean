import LaunchConfig.Proofs.Text.Utf8

/-!
# Text after text from outside

Text from outside is kept as characters and the bytes that are left over, and so it is put
together: a string is appended to the characters if all of the text is UTF-8, and else its
bytes to those left over. This is what comes of appending the bytes, because no character
begins with a byte that could continue one which is left over.

Results:

* `Utf8.decode_append`: what characters after any bytes are read as;
* `RawText.append_ofBytes`: appending a string is appending its bytes;
* `RawText.entry_ofBytes`: the path of an entry of a directory.
-/

namespace LaunchConfig

namespace Utf8

variable {p : Option Partial} {q : Partial} {held bs : List UInt8} {b : UInt8} {c : Char}
variable {n : Nat}

/-! ## Bytes that begin a character -/

/-- The bytes still to come are none that a character begins with. -/
def Partial.Inner (q : Partial) : Prop := ∀ r ∈ q.ranges, ∀ b, r.1 ≤ b ∧ b ≤ r.2 → IsTail b

theorem inner_of_read (hp : ∀ q ∈ p, q.Inner) (h : read p b = .more q) : q.Inner := by
  cases p with
  | none =>
    have hlead : Leads b (.more q) := h ▸ leads_lead b
    have htail : ∀ b, tail.1 ≤ b ∧ b ≤ tail.2 → IsTail b := fun b => isTail_iff.1
    cases hlead with
    | one _ hx => cases hx
    | two _ _ hx =>
      rw [Reading.more.inj hx]
      exact List.forall_mem_singleton.2 htail
    | three r _ _ hr hx =>
      rw [Reading.more.inj hx]
      exact List.forall_mem_cons.2 ⟨fun b hb => ((hr b).1 hb).1, List.forall_mem_singleton.2 htail⟩
    | four r _ _ hr hx =>
      rw [Reading.more.inj hx]
      exact List.forall_mem_cons.2 ⟨fun b hb => ((hr b).1 hb).1,
        List.forall_mem_cons.2 ⟨htail, List.forall_mem_singleton.2 htail⟩⟩
    | broken _ hx => cases hx
  | some p =>
    obtain ⟨n, ranges⟩ := p
    cases ranges with
    | nil => cases h
    | cons r rest =>
      obtain ⟨-, -, rfl⟩ := read_some_eq_more_iff.1 h
      exact fun r' hr' => hp _ rfl r' (List.mem_cons_of_mem r hr')

theorem Partial.Inner.read_eq_broken (hq : q.Inner) (hb : ¬ IsTail b) :
    read (some q) b = .broken := by
  obtain ⟨n, ranges⟩ := q
  cases ranges with
  | nil => rfl
  | cons r rest =>
    have hr : ¬ (r.1 ≤ b ∧ b ≤ r.2) := fun h => hb (hq r List.mem_cons_self b h)
    simp [read, Partial.next, hr]

theorem Sequence.not_isTail_head (h : Sequence (b :: bs) n) : ¬ IsTail b := by
  unfold IsTail
  cases h <;> omega

/-! ## Characters after any bytes -/

theorem decodeFrom_append (hheld : held = [] ↔ p = none) (hp : ∀ q ∈ p, q.Inner)
    (bytes : List UInt8) (cs : List Char) :
    decodeFrom p held (bytes ++ cs.flatMap String.utf8EncodeChar) =
      if (decodeFrom p held bytes).2 = [] then ((decodeFrom p held bytes).1 ++ cs, [])
      else ((decodeFrom p held bytes).1,
        (decodeFrom p held bytes).2 ++ cs.flatMap String.utf8EncodeChar) := by
  induction bytes generalizing p held with
  | nil =>
    cases p with
    | none =>
      obtain rfl := hheld.2 rfl
      exact decode_eq_nil_iff.2 rfl
    | some q =>
      have hne : held ≠ [] := fun h => nomatch hheld.1 h
      rw [List.nil_append, decodeFrom, if_neg hne]
      cases cs with
      | nil => simp [decodeFrom]
      | cons c cs =>
        have hseq := sequence_encode c
        cases henc : String.utf8EncodeChar c with
        | nil =>
          rw [henc] at hseq
          cases hseq
        | cons b bs =>
          rw [henc] at hseq
          simp [henc, decodeFrom, (hp q rfl).read_eq_broken hseq.not_isTail_head]
  | cons b rest ih =>
    rw [List.cons_append]
    unfold decodeFrom
    cases hr : read p b with
    | whole c =>
      have hnone := @ih none [] (by simp) (by simp)
      simp only [hnone]
      split <;> simp
    | more q => exact ih (by simp) fun q' hq' => Option.some.inj hq' ▸ inner_of_read hp hr
    | broken => simp

/-- Characters are read after bytes that are read to their end, and else left over with the
    bytes that are. -/
theorem decode_append (bytes : List UInt8) (cs : List Char) :
    decode (bytes ++ cs.flatMap String.utf8EncodeChar) =
      if (decode bytes).2 = [] then ((decode bytes).1 ++ cs, [])
      else ((decode bytes).1, (decode bytes).2 ++ cs.flatMap String.utf8EncodeChar) :=
  decodeFrom_append (by simp) (by simp) bytes cs

/-- The last byte of a character is the byte of `/` only if the character is `/`. -/
theorem Sequence.getLast?_eq_slash_iff (h : Sequence bs n) :
    bs.getLast? = some 0x2F ↔ n = 0x2F := by
  have hbyte (b : UInt8) : some b = some 0x2F ↔ b.toNat = 0x2F := by
    rw [Option.some.injEq, ← UInt8.toNat_inj]
    rfl
  -- a last byte after the first is no less than `0x80`, and so is the number
  cases h with
  | @one a _ => exact hbyte a
  | @two a b ha _ hb =>
    unfold IsTail at hb
    exact (hbyte b).trans (by omega)
  | @three a b c ha _ hb hc hlow _ =>
    unfold IsTail at hb hc
    exact (hbyte c).trans (by omega)
  | @four a b c d ha _ hb hc hd hlow _ =>
    unfold IsTail at hb hc hd
    exact (hbyte d).trans (by omega)

theorem getLast?_flatMap_encode (cs : List Char) :
    (cs.flatMap String.utf8EncodeChar).getLast? = some 0x2F ↔ cs.getLast? = some '/' := by
  rcases List.eq_nil_or_concat cs with rfl | ⟨cs, c, rfl⟩
  · simp
  · have hseq := sequence_encode c
    have hne : String.utf8EncodeChar c ≠ [] := by
      intro henc
      rw [henc] at hseq
      cases hseq
    have hchar : c.val.toNat = 0x2F ↔ c = '/' := by
      rw [← Char.toNat_inj]
      rfl
    rw [List.concat_eq_append, List.flatMap_append, List.getLast?_append_of_ne_nil _ (by simp),
      List.getLast?_concat, Option.some.injEq, ← hchar, ← hseq.getLast?_eq_slash_iff]
    simp

end Utf8

namespace RawText

theorem toList_loop (bytes : ByteArray) (i : Nat) (r : List UInt8) :
    ByteArray.toList.loop bytes i r = r.reverse ++ bytes.data.toList.drop i := by
  fun_induction ByteArray.toList.loop bytes i r with
  | case1 i r h ih =>
    have hi : i < bytes.data.toList.length := h
    have hget : bytes.get! i = bytes.data.toList[i] := by simp [ByteArray.get!, h]
    rw [ih, List.reverse_cons, List.append_assoc, List.drop_eq_getElem_cons hi, hget]
    rfl
  | case2 i r h =>
    have hi : bytes.data.toList.length ≤ i := Nat.le_of_not_lt h
    rw [List.drop_eq_nil_of_le hi, List.append_nil]

theorem toList_eq_toList_data (bytes : ByteArray) : bytes.toList = bytes.data.toList := by
  rw [ByteArray.toList, toList_loop, List.reverse_nil, List.nil_append, List.drop_zero]

theorem append_ofBytes (bytes : List UInt8) (s : String) :
    (ofBytes bytes).append s = ofBytes (bytes ++ s.toUTF8.data.toList) := by
  rw [append, ofBytes, ofBytes, toList_eq_toList_data, toList_toUTF8, Utf8.decode_append]
  cases h : (Utf8.decode bytes).2 <;> simp [readable, h]

theorem isEmpty_ofBytes {bytes : List UInt8} : (ofBytes bytes).isEmpty = true ↔ bytes = [] := by
  have h : Utf8.decode bytes = ([], []) ↔ bytes = [] := Utf8.decode_eq_nil_iff
  rw [← h, Prod.ext_iff]
  simp [isEmpty, ofBytes]

theorem endsInSlash_ofBytes {bytes : List UInt8} :
    (ofBytes bytes).endsInSlash = true ↔ bytes.getLast? = some 0x2F := by
  rcases h : Utf8.decode bytes with ⟨cs, junk⟩
  cases junk with
  | nil =>
    have hlast : bytes.getLast? = some 0x2F ↔ cs.getLast? = some '/' := by
      rw [Utf8.decode_eq_nil_iff.1 h, Utf8.getLast?_flatMap_encode]
    rw [hlast]
    simp [endsInSlash, readable, ofBytes, h]
  | cons b junk =>
    obtain ⟨before, hbefore⟩ := Utf8.decode_suffix bytes
    rw [h] at hbefore
    have hlast : bytes.getLast? = (b :: junk).getLast? := by
      rw [← hbefore, List.getLast?_append_of_ne_nil _ (List.cons_ne_nil b junk)]
    rw [hlast]
    simp [endsInSlash, readable, ofBytes, h]

/-- The path of an entry has one `/` before the name, also if the directory has one at its
    end. -/
theorem entry_ofBytes (bytes : List UInt8) (name : String) :
    (ofBytes bytes).entry name
      = ofBytes (bytes ++ (if bytes.getLast? = some 0x2F then [] else [0x2F])
          ++ name.toUTF8.data.toList) := by
  rw [entry]
  by_cases h : bytes.getLast? = some 0x2F
  · rw [if_pos (endsInSlash_ofBytes.2 h), append_ofBytes, if_pos h, List.append_nil]
  · have hslash : ("/" ++ name).toUTF8.data.toList = 0x2F :: name.toUTF8.data.toList := by
      simp only [toList_toUTF8, String.toList_append, List.flatMap_append]
      rfl
    rw [if_neg fun hs => h (endsInSlash_ofBytes.1 hs), append_ofBytes, if_neg h, hslash,
      List.append_assoc, List.singleton_append]

end RawText
end LaunchConfig
