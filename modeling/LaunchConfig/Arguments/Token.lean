import LaunchConfig.Text.Cut
import LaunchConfig.Text.RawText

/-!
# Kinds of arguments

An argument is told by how it begins: `--` alone ends the options, `--name` is a
long name, which may have a value after `=`, and `-abc` is a cluster of letters.
All else is plain, also `-` alone and the empty argument.

Results:

* `ofRaw_long`, `ofRaw_longValue`, `ofRaw_cluster`: the
  kind of an argument that is put together from its parts;
* `ofRaw_eq_plain_iff`: an argument is plain exactly when it does not begin with
  `-` or is a lone `-`.
-/

namespace LaunchConfig

/-- The text before the first `=`, and the text after it if there is one. -/
def RawText.cutAtEquals (t : RawText) : RawText × Option RawText :=
  match cutAt '=' t.chars with
  | (before, some after) => (⟨before, []⟩, some ⟨after, t.junk⟩)
  | (before, none) =>
    match cutAt 0x3D t.junk with
    | (junk, after) => (⟨before, junk⟩, after.map .ofBytes)

/-- The kind of an argument that stands where an option may stand. -/
inductive Token where
  /-- The end of the options. -/
  | escape
  /-- A long name after two dashes, with the value after `=` if there is one. -/
  | long (name : RawText) (value? : Option RawText)
  /-- Letters after one dash, the last of them perhaps with its value. -/
  | cluster (letters : RawText)
  /-- Text that is neither. -/
  | plain
  deriving DecidableEq, Repr

namespace Token

/-- The kind of an argument. -/
def ofRaw (a : RawText) : Token :=
  match a.chars with
  | '-' :: '-' :: rest =>
    if rest.isEmpty && a.junk.isEmpty then .escape
    else
      let (name, value?) := RawText.cutAtEquals ⟨rest, a.junk⟩
      .long name value?
  | '-' :: rest => if rest.isEmpty && a.junk.isEmpty then .plain else .cluster ⟨rest, a.junk⟩
  | _ => .plain

/-- The argument does not begin with `-`, or is a lone `-`. -/
def IsPlain (a : RawText) : Prop := a.chars.head? ≠ some '-' ∨ (a.chars = ['-'] ∧ a.junk = [])

instance (a : RawText) : Decidable (IsPlain a) := by
  unfold IsPlain
  infer_instance

theorem ofRaw_eq_plain_iff {a : RawText} : ofRaw a = .plain ↔ IsPlain a := by
  obtain ⟨chars, junk⟩ := a
  unfold ofRaw IsPlain
  split
  · next rest h =>
    dsimp only at h ⊢
    subst h
    split <;> simp
  · next rest hne h =>
    dsimp only at h ⊢
    subst h
    split <;> simp_all
  · next h₁ h₂ =>
    dsimp only at h₁ h₂ ⊢
    cases chars with
    | nil => simp
    | cons c rest =>
      have : c ≠ '-' := fun hc => h₂ rest (hc ▸ rfl)
      simp [this]

theorem ofRaw_eq_escape_iff {a : RawText} : ofRaw a = .escape ↔ a = .ofString "--" := by
  constructor
  · intro h
    obtain ⟨chars, junk⟩ := a
    unfold ofRaw at h
    split at h
    · next rest hc =>
      dsimp only at hc h
      subst hc
      split at h
      · next he =>
        simp only [Bool.and_eq_true, List.isEmpty_iff] at he
        obtain ⟨rfl, rfl⟩ := he
        rfl
      · cases h
    · split at h <;> cases h
    · cases h
  · rintro rfl
    rfl

/-- A long name without a value. -/
theorem ofRaw_long {name : List Char} (hn : name ≠ []) (he : '=' ∉ name) :
    ofRaw ⟨'-' :: '-' :: name, []⟩ = .long ⟨name, []⟩ none := by
  simp [ofRaw, hn, RawText.cutAtEquals, cutAt_of_not_mem he]

/-- A long name and its value. -/
theorem ofRaw_longValue {name : List Char} (he : '=' ∉ name) (value : List Char)
    (junk : List UInt8) :
    ofRaw ⟨'-' :: '-' :: (name ++ '=' :: value), junk⟩
      = .long ⟨name, []⟩ (some ⟨value, junk⟩) := by
  simp [ofRaw, RawText.cutAtEquals, cutAt_append he]

/-- A letter, and more letters or a value. -/
theorem ofRaw_cluster {c : Char} (hc : c ≠ '-') (rest : List Char) (junk : List UInt8) :
    ofRaw ⟨'-' :: c :: rest, junk⟩ = .cluster ⟨c :: rest, junk⟩ := by
  unfold ofRaw
  split
  · next h =>
    injection h with _ h
    injection h with h
    exact absurd h hc
  · next h =>
    injection h with _ h
    simp [← h]
  · next h => exact absurd rfl (h _)

end Token
end LaunchConfig
