import LaunchConfig.Arguments.Token
import LaunchConfig.Proofs.Arguments.Lookup
import LaunchConfig.Proofs.Arguments.Occurrence

/-!
# The grammar of command lines

`Splits s ts us` says, without a reader, that the arguments `ts` can be cut from
left to right into pieces that mean the occurrences `us`. A piece is a positional
argument; an argument that names options; or such an argument with the value of its
last option in the argument after it. After an argument `--` that begins a piece
all arguments are positional.

One rule is for an option that takes a value and is left without one, at the end or
before an argument that is no value. Whether that is allowed is not said here.

Results:

* `Splits.of`: what occurs is registered, and valued only if it takes a value;
* `Cluster.head_ne`: letters that name options do not begin with a dash.
-/

namespace LaunchConfig

variable {s : Schema}

/-! ## Arguments that name options -/

/-- A value that follows its letter; one `=` may stand before it. -/
def withoutEquals : List Char → List Char
  | '=' :: v => v
  | v => v

/-- Letters that name flags and at their end perhaps an option that takes a value:
    the rest of the letters is the value, or else the option stays open. -/
inductive Cluster (s : Schema) : List Char → List Occurrence → Option OptionSpec → Prop
  | nil : Cluster s [] [] none
  | flag {o : OptionSpec} {c : Char} {cs : List Char} {us : List Occurrence}
      {o? : Option OptionSpec} :
      o ∈ s.options → o.takesValue = false → o.short? = some c → Cluster s cs us o? →
        Cluster s (c :: cs) (.flag o :: us) o?
  | value {o : OptionSpec} {c : Char} {v : List Char} :
      o ∈ s.options → o.takesValue = true → o.short? = some c → v ≠ [] →
        Cluster s (c :: v) [.valued o (.ofList (withoutEquals v))] none
  | opened {o : OptionSpec} {c : Char} :
      o ∈ s.options → o.takesValue = true → o.short? = some c → Cluster s [c] [] (some o)

/-- One argument that names options: the occurrences that it completes, and the
    option that it leaves open for a value. -/
inductive Spells (s : Schema) : String → List Occurrence → Option OptionSpec → Prop
  | longFlag {o : OptionSpec} {l : String} :
      o ∈ s.options → o.takesValue = false → o.typedLong? = some l →
        Spells s ("--" ++ l) [.flag o] none
  | longValue {o : OptionSpec} {l : String} (v : String) :
      o ∈ s.options → o.takesValue = true → o.typedLong? = some l →
        Spells s ("--" ++ l ++ "=" ++ v) [.valued o v] none
  | longOpened {o : OptionSpec} {l : String} :
      o ∈ s.options → o.takesValue = true → o.typedLong? = some l →
        Spells s ("--" ++ l) [] (some o)
  | letters {cs : List Char} {us : List Occurrence} {o? : Option OptionSpec} :
      cs ≠ [] → Cluster s cs us o? → Spells s (.ofList ('-' :: cs)) us o?

/-! ## Lists of arguments -/

/-- The arguments are cut into pieces that mean the occurrences. -/
inductive Splits (s : Schema) : List String → List Occurrence → Prop
  | nil : Splits s [] []
  | positional {t : String} {ts : List String} {us : List Occurrence} :
      Token.IsPlain (.ofString t) → Splits s ts us → Splits s (t :: ts) (.positional t :: us)
  | named {t : String} {ts : List String} {us vs : List Occurrence} :
      Spells s t us none → Splits s ts vs → Splits s (t :: ts) (us ++ vs)
  | detached {t v : String} {ts : List String} {us vs : List Occurrence} {o : OptionSpec} :
      Spells s t us (some o) → Token.IsPlain (.ofString v) → Splits s ts vs →
        Splits s (t :: v :: ts) (us ++ .valued o v :: vs)
  | bare {t : String} {ts : List String} {us vs : List Occurrence} {o : OptionSpec} :
      Spells s t us (some o) → (∀ v ∈ ts.head?, ¬ Token.IsPlain (.ofString v)) →
        Splits s ts vs → Splits s (t :: ts) (us ++ .bare o :: vs)
  | escape (ts : List String) : Splits s ("--" :: ts) (ts.map .positional)

/-! ## What occurs -/

theorem Cluster.of {cs : List Char} {us : List Occurrence} {o? : Option OptionSpec}
    (h : Cluster s cs us o?) :
    (∀ u ∈ us, u.Of s) ∧ ∀ o ∈ o?, o ∈ s.options ∧ o.takesValue = true := by
  induction h with
  | nil => simp
  | flag ho hf _ _ ih =>
    refine ⟨?_, ih.2⟩
    rw [List.forall_mem_cons]
    exact ⟨⟨ho, hf⟩, ih.1⟩
  | value ho ht _ _ => simpa [Occurrence.Of] using ⟨ho, ht⟩
  | opened ho ht _ => simpa using ⟨ho, ht⟩

theorem Spells.of {t : String} {us : List Occurrence} {o? : Option OptionSpec}
    (h : Spells s t us o?) :
    (∀ u ∈ us, u.Of s) ∧ ∀ o ∈ o?, o ∈ s.options ∧ o.takesValue = true := by
  cases h with
  | longFlag ho hf _ => simpa [Occurrence.Of] using ⟨ho, hf⟩
  | longValue v ho ht _ => simpa [Occurrence.Of] using ⟨ho, ht⟩
  | longOpened ho ht _ => simpa using ⟨ho, ht⟩
  | letters _ hc => exact hc.of

/-- What occurs is registered, and given a value only if it takes one. -/
theorem Splits.of {ts : List String} {us : List Occurrence} (h : Splits s ts us) :
    ∀ u ∈ us, u.Of s := by
  induction h with
  | nil => simp
  | positional _ _ ih =>
    rw [List.forall_mem_cons]
    exact ⟨trivial, ih⟩
  | named hsp _ ih =>
    rw [List.forall_mem_append]
    exact ⟨hsp.of.1, ih⟩
  | detached hsp _ _ ih =>
    rw [List.forall_mem_append, List.forall_mem_cons]
    exact ⟨hsp.of.1, hsp.of.2 _ rfl, ih⟩
  | bare hsp _ _ ih =>
    rw [List.forall_mem_append, List.forall_mem_cons]
    exact ⟨hsp.of.1, hsp.of.2 _ rfl, ih⟩
  | escape ts => simp [Occurrence.Of]

theorem Cluster.head_ne (ht : s.Typable) {c : Char} {cs : List Char} {us : List Occurrence}
    {o? : Option OptionSpec} (h : Cluster s (c :: cs) us o?) : c ≠ '-' := by
  cases h with
  | flag ho _ hc _ => exact ((ht _ ho).ne_of_short? hc).1
  | value ho _ hc _ => exact ((ht _ ho).ne_of_short? hc).1
  | opened ho _ hc => exact ((ht _ ho).ne_of_short? hc).1

end LaunchConfig
