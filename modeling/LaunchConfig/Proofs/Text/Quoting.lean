import LaunchConfig.Text.Cut
import LaunchConfig.Text.Quoted
import Mathlib.Data.List.Basic

/-!
# Quoted texts can be told apart

What stands between quotes or brackets says where it ends, whatever is written inside and
whatever comes after it. So it can be told what has been written, also where several texts are
written one after the other. It is the same with the characters of a string, of which some are
written as a letter or a number after a backslash.

Results:

* `Delimits.upTo`, `Delimits.pair`, `Delimits.joined`: texts in turn up to a character, two
  texts, or a list of texts up to a bracket, say where they end if each of the texts does;
* `delimits_escape`: a character says where it ends;
* `delimits_quoteList`, `delimits_quoteMap`: so do lists and maps of strings.
-/

namespace LaunchConfig.Quoted

/-! ## Texts that say where they end -/

section Delimits

variable {α β : Type} {write : α → List Char} {write' : β → List Char}

/-- From a text that begins with what is written it can be told what that is, and what comes
    after it. -/
def Delimits (write : α → List Char) : Prop :=
  ∀ ⦃x y : α⦄ ⦃rest rest' : List Char⦄, write x ++ rest = write y ++ rest' → x = y ∧ rest = rest'

theorem Delimits.injective (h : Delimits write) {x y : α} (heq : write x = write y) : x = y :=
  (h (congrArg (· ++ []) heq)).1

/-- Two texts in turn, with what always stands before and between them. -/
theorem Delimits.pair (h : Delimits write) (h' : Delimits write') (before between : List Char) :
    Delimits fun p : α × β => before ++ write p.1 ++ between ++ write' p.2 := by
  rintro ⟨x, y⟩ ⟨x', y'⟩ rest rest' heq
  simp only [List.append_assoc, List.append_cancel_left_eq] at heq
  obtain ⟨rfl, hrest⟩ := h heq
  obtain ⟨rfl, rfl⟩ := h' (List.append_cancel_left hrest)
  exact ⟨rfl, rfl⟩

/-- Texts in turn, up to a character with which none of them begins. -/
theorem Delimits.upTo (h : Delimits write) {closing : Char}
    (hhead : ∀ x, ∃ c cs, write x = c :: cs ∧ c ≠ closing) {xs ys : List α}
    {rest rest' : List Char}
    (heq : xs.flatMap write ++ closing :: rest = ys.flatMap write ++ closing :: rest') :
    xs = ys ∧ rest = rest' := by
  have hne (x : α) (rest rest' : List Char) : closing :: rest ≠ write x ++ rest' := by
    obtain ⟨c, cs, hx, hc⟩ := hhead x
    rw [hx]
    exact fun heq => hc (List.cons.inj heq).1.symm
  induction xs generalizing ys with
  | nil =>
    cases ys with
    | nil => exact ⟨rfl, (List.cons.inj heq).2⟩
    | cons y ys =>
      rw [List.flatMap_cons, List.append_assoc] at heq
      exact absurd heq (hne y _ _)
  | cons x xs ih =>
    cases ys with
    | nil =>
      rw [List.flatMap_cons, List.append_assoc] at heq
      exact absurd heq.symm (hne x _ _)
    | cons y ys =>
      rw [List.flatMap_cons, List.flatMap_cons, List.append_assoc, List.append_assoc] at heq
      obtain ⟨rfl, hrest⟩ := h heq
      obtain ⟨rfl, rfl⟩ := ih hrest
      exact ⟨rfl, rfl⟩

theorem intercalate_cons (sep first : List Char) (parts : List (List Char)) :
    sep.intercalate (first :: parts) = first ++ parts.flatMap (sep ++ ·) := by
  induction parts generalizing first with
  | nil => simp
  | cons part parts ih =>
    rw [List.intercalate_cons_cons, ih, List.flatMap_cons, List.append_assoc, List.append_assoc]

/-- A list of texts with commas between them, up to its bracket. A text that begins with a quote
    is not taken for the bracket. -/
theorem Delimits.joined (h : Delimits write) (hhead : ∀ x, (write x).head? = some '"')
    (opening : List Char) {closing : Char} (hquote : closing ≠ '"') (hcomma : closing ≠ ',') :
    Delimits fun xs : List α => opening ++ [',', ' '].intercalate (xs.map write) ++ [closing] := by
  have hne (x : α) (rest rest' : List Char) : closing :: rest ≠ write x ++ rest' := by
    intro heq
    have hhead' := congrArg List.head? heq
    rw [List.head?_append, hhead] at hhead'
    exact hquote (Option.some.inj hhead')
  have hcommas : Delimits fun x => [',', ' '] ++ write x := by
    intro x y rest rest' heq
    simp only [List.append_assoc, List.append_cancel_left_eq] at heq
    exact h heq
  intro xs ys rest rest' heq
  simp only [List.append_assoc, List.append_cancel_left_eq, List.singleton_append] at heq
  cases xs with
  | nil =>
    cases ys with
    | nil => exact ⟨rfl, (List.cons.inj heq).2⟩
    | cons y ys =>
      rw [List.map_cons, intercalate_cons, List.append_assoc] at heq
      exact absurd heq (hne y _ _)
  | cons x xs =>
    cases ys with
    | nil =>
      rw [List.map_cons, intercalate_cons, List.append_assoc] at heq
      exact absurd heq.symm (hne x _ _)
    | cons y ys =>
      simp only [List.map_cons, intercalate_cons, List.append_assoc, List.flatMap_map] at heq
      obtain ⟨rfl, hrest⟩ := h heq
      obtain ⟨rfl, rfl⟩ := hcommas.upTo (fun x => ⟨',', ' ' :: write x, rfl, hcomma.symm⟩) hrest
      exact ⟨rfl, rfl⟩

end Delimits

/-! ## Numbers -/

/-- The value of a hexadecimal digit. -/
def hexValue (c : Char) : Nat := if c.toNat < 0x3A then c.toNat - 0x30 else c.toNat - 0x57

/-- Read hexadecimal digits, the first of which counts most. -/
def readHex (digits : List Char) : Nat := digits.foldl (fun n c => 16 * n + hexValue c) 0

theorem hexValue_digitChar : ∀ d < 16, hexValue d.digitChar = d := by decide

theorem readHex_append (digits : List Char) (c : Char) :
    readHex (digits ++ [c]) = 16 * readHex digits + hexValue c := by
  simp [readHex, List.foldl_append]

theorem readHex_toDigits (n : Nat) : readHex (Nat.toDigits 16 n) = n := by
  induction n using Nat.strongRecOn with
  | ind n ih =>
    rw [Nat.toDigits_eq_if (by decide)]
    split
    · next h => exact (Nat.zero_add _).trans (hexValue_digitChar n h)
    · rw [readHex_append, ih (n / 16) (by omega),
        hexValue_digitChar _ (Nat.mod_lt n (by decide)), Nat.div_add_mod]

theorem brace_not_mem_toDigits (n : Nat) : '\x7d' ∉ Nat.toDigits 16 n := by
  have hdigit : ∀ d < 16, '\x7d' ≠ d.digitChar := by decide
  induction n using Nat.strongRecOn with
  | ind n ih =>
    rw [Nat.toDigits_eq_if (by decide)]
    split
    · next h => exact fun hmem => hdigit n h (List.mem_singleton.1 hmem)
    · rw [List.mem_append, List.mem_singleton, not_or]
      exact ⟨ih (n / 16) (by omega), hdigit _ (Nat.mod_lt n (by decide))⟩

/-- A number in digits says where it ends: at the brace. -/
theorem digits_inj {m n : Nat} {rest rest' : List Char}
    (h : Nat.toDigits 16 m ++ '\x7d' :: rest = Nat.toDigits 16 n ++ '\x7d' :: rest') :
    m = n ∧ rest = rest' := by
  have hcut := congrArg (cutAt '\x7d') h
  rw [cutAt_append (brace_not_mem_toDigits m), cutAt_append (brace_not_mem_toDigits n)] at hcut
  obtain ⟨hdigits, hrest⟩ := Prod.mk.inj hcut
  have hread := congrArg readHex hdigits
  rw [readHex_toDigits, readHex_toDigits] at hread
  exact ⟨hread, Option.some.inj hrest⟩

/-! ## Characters -/

/-- The character that a letter after a backslash stands for. -/
def meaning : Char → Char
  | 'n' => '\n'
  | 't' => '\t'
  | 'r' => '\r'
  | '0' => '\x00'
  | c => c

theorem meaning_of_letter? {c l : Char} (h : letter? c = some l) : meaning l = c := by
  unfold letter? at h
  split at h <;> simp_all <;> subst h <;> rfl

theorem ne_of_letter? {c l : Char} (h : letter? c = some l) : l ≠ 'u' := by
  unfold letter? at h
  split at h <;> simp_all <;> subst h <;> decide

/-- The three ways in which a character is written. -/
inductive Written (c : Char) : List Char → Prop
  | letter {l : Char} : letter? c = some l → Written c ['\\', l]
  | number : Written c ('\\' :: 'u' :: '\x7b' :: (Nat.toDigits 16 c.toNat ++ ['\x7d']))
  | same : c ≠ '\\' → c ≠ '"' → Written c [c]

theorem written_escape (c : Char) : Written c (escape c) := by
  unfold escape
  cases h : letter? c with
  | some l => exact .letter h
  | none =>
    have hne (d : Char) (hd : letter? d ≠ none) : c ≠ d := fun heq => hd (heq ▸ h)
    dsimp only
    split
    · exact .number
    · exact .same (hne '\\' nofun) (hne '"' nofun)

theorem exists_escape_eq_cons (c : Char) : ∃ d cs, escape c = d :: cs ∧ d ≠ '"' := by
  generalize escape c = text, written_escape c = h
  cases h with
  | letter _ => exact ⟨_, _, rfl, by decide⟩
  | number => exact ⟨_, _, rfl, by decide⟩
  | same _ hquote => exact ⟨_, _, rfl, hquote⟩

theorem delimits_escape : Delimits escape := by
  intro c d rest rest' heq
  have hc := written_escape c
  have hd := written_escape d
  generalize escape c = text, escape d = text' at hc hd heq
  cases hc with
  | letter hl =>
    cases hd with
    | letter hl' =>
      simp only [List.cons_append, List.nil_append, List.cons.injEq, true_and] at heq
      obtain ⟨rfl, hrest⟩ := heq
      exact ⟨(meaning_of_letter? hl).symm.trans (meaning_of_letter? hl'), hrest⟩
    | number =>
      simp only [List.cons_append, List.nil_append, List.cons.injEq, true_and] at heq
      exact absurd heq.1 (ne_of_letter? hl)
    | same hne _ => exact absurd (List.cons.inj heq).1.symm hne
  | number =>
    cases hd with
    | letter hl' =>
      simp only [List.cons_append, List.nil_append, List.cons.injEq, true_and] at heq
      exact absurd heq.1.symm (ne_of_letter? hl')
    | number =>
      simp only [List.cons_append, List.append_assoc, List.nil_append, List.cons.injEq,
        true_and] at heq
      obtain ⟨hnumber, hrest⟩ := digits_inj heq
      exact ⟨Char.toNat_inj.1 hnumber, hrest⟩
    | same hne _ => exact absurd (List.cons.inj heq).1.symm hne
  | same hne _ =>
    cases hd with
    | letter _ => exact absurd (List.cons.inj heq).1 hne
    | number => exact absurd (List.cons.inj heq).1 hne
    | same _ _ =>
      obtain ⟨rfl, hrest⟩ := List.cons.inj heq
      exact ⟨rfl, hrest⟩

/-! ## Strings, lists and maps -/

theorem toList_quote (s : String) : (quote s).toList = '"' :: s.toList.flatMap escape ++ ['"'] := by
  simp [quote]

theorem delimits_quote : Delimits fun s => (quote s).toList := by
  intro s t rest rest' heq
  simp only [toList_quote, List.cons_append, List.append_assoc, List.nil_append,
    List.cons.injEq, true_and] at heq
  obtain ⟨hs, hrest⟩ := delimits_escape.upTo exists_escape_eq_cons heq
  exact ⟨String.toList_inj.1 hs, hrest⟩

theorem delimits_quoteList : Delimits fun items => (quoteList items).toList := by
  have htext : (fun items => (quoteList items).toList) = fun items : List String =>
      ['['] ++ [',', ' '].intercalate (items.map fun s => (quote s).toList) ++ [']'] := by
    funext items
    simp [quoteList, Function.comp_def]
  rw [htext]
  exact delimits_quote.joined (fun s => by rw [toList_quote]; rfl) _ (by decide) (by decide)

theorem delimits_quoteMap : Delimits fun entries => (quoteMap entries).toList := by
  have hentry := delimits_quote.pair delimits_quote [] [':', ' ']
  have htext : (fun entries => (quoteMap entries).toList) = fun entries : List (String × String) =>
      ['\x7b'] ++ [',', ' '].intercalate (entries.map fun e =>
        [] ++ (quote e.1).toList ++ [':', ' '] ++ (quote e.2).toList) ++ ['\x7d'] := by
    funext entries
    simp [quoteMap, Function.comp_def]
  rw [htext]
  exact hentry.joined (fun e => by rw [toList_quote]; rfl) _ (by decide) (by decide)

end LaunchConfig.Quoted
