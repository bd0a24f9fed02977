import LaunchConfig.Json.Pretty
import LaunchConfig.Proofs.Json.Reader

/-!
# Printed JSON is read back

Results:

* `Reader.run_quote`: a string is read back from its escapes, whatever its characters are;
* `Reader.run_render`: a value is read back at any depth;
* `read?_pretty`: so is a whole text;
* `pretty_inj`: values that are printed alike are equal.
-/

namespace LaunchConfig.Json

namespace Reader

variable {frames : List Frame} {awaited : Awaited} {text : List Char}

/-! ## Strings -/

theorem escaped?_of_letter? {c l : Char} (h : letter? c = some l) :
    escaped? l = some c ∧ l ≠ 'u' := by
  unfold letter? at h
  split at h <;> first | (cases h; decide) | cases h

theorem digit?_hexDigit {n : Nat} (hn : n < 16) : digit? (hexDigit n) = some n := by
  have h : ∀ n < 16, digit? (hexDigit n) = some n := by decide
  exact h n hn

theorem unit?_toNat {c : Char} (hc : c.toNat < 0xD800) :
    unit? text none c.toNat = some (.string (text ++ [c]) none) := by
  have hhalf : ¬ (0xD800 ≤ c.toNat ∧ c.toNat ≤ 0xDBFF) := by omega
  have hother : ¬ (0xDC00 ≤ c.toNat ∧ c.toNat ≤ 0xDFFF) := by omega
  rw [unit?, if_neg hhalf, if_neg hother, Char.ofNat_toNat]

/-- A character is read back from what it is written as in a string. -/
theorem run_escapeChar (c : Char) :
    run ⟨.string text none, frames, awaited⟩ (escapeChar c)
      = some ⟨.string (text ++ [c]) none, frames, awaited⟩ := by
  unfold escapeChar
  cases hl : letter? c with
  | some l =>
    obtain ⟨hescaped, hu⟩ := escaped?_of_letter? hl
    simp [step, inString?, inEscape?, hescaped, hu]
  | none =>
    have hquote : c ≠ '"' := by
      rintro rfl
      cases hl
    have hbackslash : c ≠ '\\' := by
      rintro rfl
      cases hl
    dsimp only
    by_cases hc : c.toNat < 0x20
    · have hhigh : digit? (hexDigit (c.toNat / 16)) = some (c.toNat / 16) :=
        digit?_hexDigit (by omega)
      have hlow : digit? (hexDigit (c.toNat % 16)) = some (c.toNat % 16) :=
        digit?_hexDigit (by omega)
      have hzero : digit? '0' = some 0 := by decide
      have hnumber : c.toNat / 16 * 16 + c.toNat % 16 = c.toNat := Nat.div_add_mod' _ _
      have hunit : unit? text none c.toNat = some (.string (text ++ [c]) none) :=
        unit?_toNat (by omega)
      rw [if_pos hc]
      simp [step, inString?, inEscape?, inDigits?, hzero, hhigh, hlow, hnumber, hunit]
    · rw [if_neg hc]
      simp [step, inString?, hquote, hbackslash, hc]

theorem run_flatMap_escapeChar (cs : List Char) :
    run ⟨.string text none, frames, awaited⟩ (cs.flatMap escapeChar)
      = some ⟨.string (text ++ cs) none, frames, awaited⟩ := by
  induction cs generalizing text with
  | nil => simp
  | cons c cs ih =>
    rw [List.flatMap_cons, run_append, run_escapeChar, Option.bind_some, ih, List.append_assoc,
      List.singleton_append]

/-- **A string is read back from its escapes.** -/
theorem run_quote (s : String) :
    run ⟨.between, frames, awaited⟩ (quote s) = atom frames awaited (.str s) := by
  have hopen : step ⟨.between, frames, awaited⟩ '"' = some ⟨.string [] none, frames, awaited⟩ :=
    rfl
  rw [quote, run_cons, hopen, Option.bind_some, run_append, run_flatMap_escapeChar]
  simp [step]

/-! ## Lines -/

theorem run_newline (depth : Nat) :
    run ⟨.between, frames, awaited⟩ (newline depth) = some ⟨.between, frames, awaited⟩ := by
  have hblank (c : Char) (hc : isBlank c = true) :
      step ⟨.between, frames, awaited⟩ c = some ⟨.between, frames, awaited⟩ := if_pos hc
  have hspaces (n : Nat) : run ⟨.between, frames, awaited⟩ (List.replicate n ' ')
      = some ⟨.between, frames, awaited⟩ := by
    induction n with
    | zero => rfl
    | succ n ih => rw [List.replicate_succ, run_cons, hblank ' ' rfl, Option.bind_some, ih]
  rw [newline, run_cons, hblank '\n' rfl, Option.bind_some, hspaces]

section Block

variable {α : Type} (opened : List α → Bool → Reader) {more : List α → Reader}
  (close : List α → Option Reader) {write : α → List Char} {depth : Nat} {xs : List α}

/-- Parts on lines of their own are read one by one, if each is. -/
theorem run_parts
    (hwrite : ∀ x ∈ xs, ∀ done first,
      run (opened done first) (newline depth ++ write x) = some (more (done ++ [x])))
    (hcomma : ∀ done, step (more done) ',' = some (opened done false)) (hxs : xs ≠ [])
    (done : List α) (first : Bool) :
    run (opened done first) (((xs.map write).map (newline depth ++ ·)).intersperse [',']).flatten
      = some (more (done ++ xs)) := by
  induction xs generalizing done first with
  | nil => exact absurd rfl hxs
  | cons x rest ih =>
    rw [List.forall_mem_cons] at hwrite
    cases rest with
    | nil => simpa using hwrite.1 done first
    | cons y rest =>
      have hrest := ih hwrite.2 (List.cons_ne_nil y rest) (done ++ [x]) false
      rw [List.append_assoc, List.singleton_append] at hrest
      rw [List.map_cons, List.map_cons, List.map_cons, List.map_cons, List.intersperse_cons_cons,
        List.flatten_cons, List.flatten_cons, run_append, hwrite.1 done first, Option.bind_some,
        List.singleton_append, run_cons, hcomma, Option.bind_some]
      exact hrest

theorem run_block {r : Reader} {opening closing : Char}
    (hopen : step r opening = some (opened [] true))
    (hwrite : ∀ x ∈ xs, ∀ done first,
      run (opened done first) (newline (depth + 1) ++ write x) = some (more (done ++ [x])))
    (hcomma : ∀ done, step (more done) ',' = some (opened done false))
    (hempty : run (opened [] true) [closing] = close [])
    (hclose : ∀ done, run (more done) (newline depth ++ [closing]) = close done) :
    run r (block depth opening closing (xs.map write)) = close xs := by
  cases xs with
  | nil => rw [List.map_nil, block_nil, run_cons, hopen, Option.bind_some, hempty]
  | cons x rest =>
    rw [block, if_neg (by simp), List.append_assoc, List.cons_append, run_cons, hopen,
      Option.bind_some, run_append,
      run_parts opened hwrite hcomma (List.cons_ne_nil x rest) [] true, Option.bind_some,
      List.nil_append, hclose]

end Block

/-! ## Values -/

theorem run_null : run ⟨.between, frames, awaited⟩ "null".toList = atom frames awaited .null := by
  simp [step, isBlank, begin]

theorem run_bool (b : Bool) :
    run ⟨.between, frames, awaited⟩ (if b then "true" else "false").toList
      = atom frames awaited (.bool b) := by
  cases b <;> simp [step, isBlank, begin]

theorem run_list {depth : Nat} {items : List Json} {first : Bool}
    (hitems : ∀ item ∈ items, ∀ frames first,
      run ⟨.between, frames, .value first⟩ (render (depth + 1) item) = put frames item) :
    run ⟨.between, frames, .value first⟩ (render depth (.list items))
      = put frames (.list items) := by
  have hwrite : ∀ item ∈ items, ∀ done first,
      run ⟨.between, .list done :: frames, .value first⟩
          (newline (depth + 1) ++ render (depth + 1) item)
        = some ⟨.between, .list (done ++ [item]) :: frames, .more⟩ := by
    intro item hmem done first
    rw [run_append, run_newline, Option.bind_some, hitems item hmem, put]
  have hempty : run ⟨.between, .list [] :: frames, .value true⟩ [']'] = put frames (.list []) := by
    simp [step, isBlank, begin, mark]
  have hclose (done : List Json) :
      run ⟨.between, .list done :: frames, .more⟩ (newline depth ++ [']'])
        = put frames (.list done) := by
    rw [run_append, run_newline]
    simp [step, isBlank, begin, mark]
  rw [render, renderItems_eq_map]
  exact run_block (fun done first => ⟨.between, .list done :: frames, .value first⟩)
    (fun done => put frames (.list done)) rfl hwrite (fun _ => rfl) hempty hclose

theorem run_object {depth : Nat} {fields : List (String × Json)} {first : Bool}
    (hfields : ∀ f ∈ fields, ∀ frames first,
      run ⟨.between, frames, .value first⟩ (render (depth + 1) f.2) = put frames f.2) :
    run ⟨.between, frames, .value first⟩ (render depth (.object fields))
      = put frames (.object fields) := by
  have hwrite : ∀ f ∈ fields, ∀ done first,
      run ⟨.between, .object done :: frames, .name first⟩
          (newline (depth + 1) ++ (quote f.1 ++ ':' :: ' ' :: render (depth + 1) f.2))
        = some ⟨.between, .object (done ++ [f]) :: frames, .more⟩ := by
    intro f hmem done first
    have hcolon : run ⟨.between, .field done f.1 :: frames, .colon⟩
        (':' :: ' ' :: render (depth + 1) f.2)
          = run ⟨.between, .field done f.1 :: frames, .value false⟩ (render (depth + 1) f.2) :=
      rfl
    rw [run_append, run_newline, Option.bind_some, run_append, run_quote, atom, Option.bind_some,
      hcolon, hfields f hmem, put]
  have hempty : run ⟨.between, .object [] :: frames, .name true⟩ ['}']
      = put frames (.object []) := by
    simp [step, isBlank, begin, mark]
  have hclose (done : List (String × Json)) :
      run ⟨.between, .object done :: frames, .more⟩ (newline depth ++ ['}'])
        = put frames (.object done) := by
    rw [run_append, run_newline]
    simp [step, isBlank, begin, mark]
  rw [render, renderFields_eq_map]
  exact run_block (fun done first => ⟨.between, .object done :: frames, .name first⟩)
    (fun done => put frames (.object done)) rfl hwrite (fun _ => rfl) hempty hclose

/-- **A value is read back**, at any depth and inside whatever is open. -/
theorem run_render (depth : Nat) (j : Json) (frames : List Frame) (first : Bool) :
    run ⟨.between, frames, .value first⟩ (render depth j) = put frames j := by
  match j with
  | .null => rw [render, run_null, atom]
  | .bool b => rw [render, run_bool, atom]
  | .str s => rw [render, run_quote, atom]
  | .list items => exact run_list fun item hmem => run_render (depth + 1) item
  | .object fields => exact run_object fun f hmem => run_render (depth + 1) f.2
termination_by sizeOf j
decreasing_by
  · have hlt := List.sizeOf_lt_of_mem hmem
    simp only [Json.list.sizeOf_spec]
    omega
  · have hlt := List.sizeOf_lt_of_mem hmem
    have hsize : sizeOf f.2 < sizeOf f := by
      obtain ⟨name, value⟩ := f
      simp only [Prod.mk.sizeOf_spec]
      omega
    simp only [Json.object.sizeOf_spec]
    omega

end Reader

/-! ## Texts -/

/-- What is printed is read back, also with a line break after it. -/
theorem read?_pretty (j : Json) :
    read? j.pretty = some j ∧ read? (j.pretty ++ "\n") = some j := by
  have h : Reader.run {} (render 0 j) = some ⟨.between, [], .nothing j⟩ :=
    Reader.run_render 0 j [] false
  constructor
  · rw [read?, pretty, String.toList_ofList, h]
    rfl
  · rw [read?, pretty, String.toList_append, String.toList_ofList, Reader.run_append, h]
    rfl

/-- Blanks may be left out, escapes need not be those that are printed, and a comma must have a
    value after it. -/
example :
    read? "[true,\x7b\"\\ud834\\udd1e\":[ ]\x7d]"
      = some (.list [.bool true, .object [("𝄞", .list [])]]) ∧
    read? "[true,]" = none := by
  constructor <;> rfl

/-- Values that are printed alike are equal. -/
theorem pretty_inj {j k : Json} (h : j.pretty = k.pretty) : j = k := by
  have hj := (read?_pretty j).1
  rw [h, (read?_pretty k).1] at hj
  exact (Option.some.inj hj).symm

end LaunchConfig.Json
