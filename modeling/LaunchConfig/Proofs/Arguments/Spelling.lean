import LaunchConfig.Proofs.Arguments.Splitting

/-!
# Reading one argument

The reader tells the kind of an argument by its first characters and looks its
names up; the grammar puts arguments together from names and values. Both come to
the same occurrences, as long as the text of the argument is UTF-8.

Results:

* `readToken_of_spells`: an argument that names options is read as these options;
* `spells_of_readToken`: an argument that is read is the end of the options, or
  positional, or names the options that are read.
-/

namespace LaunchConfig

/-! ## Text from outside -/

namespace RawText

/-- No byte that is a character of its own stands first among those that cannot be
    read. All text that is decoded from bytes is like that. -/
def Proper (t : RawText) : Prop := ∀ b ∈ t.junk.head?, 0x80 ≤ b

theorem readable_iff {t : RawText} : t.readable = true ↔ t.junk = [] := by
  simp [readable]

end RawText

namespace Utf8

theorem le_of_lead_ne_whole {b : UInt8} (h : ∀ c, lead b ≠ .whole c) : 0x80 ≤ b := by
  rcases Decidable.em (b < 0x80) with hlt | hge
  · exact absurd (if_pos hlt) (h (Char.ofNat b.toNat))
  · exact UInt8.not_lt.1 hge

/-- The bytes that are left over begin with the bytes that are held, or else with a
    byte that begins no character of its own. -/
theorem le_head_decodeFrom {p : Option Partial} {held bytes : List UInt8}
    (hheld : ∀ b ∈ held.head?, 0x80 ≤ b) (hp : held = [] → p = none) :
    ∀ b ∈ (decodeFrom p held bytes).2.head?, 0x80 ≤ b := by
  induction bytes generalizing p held with
  | nil => exact hheld
  | cons b rest ih =>
    have hhead (hb : held = [] → 0x80 ≤ b) (l : List UInt8) :
        ∀ b' ∈ (held ++ b :: l).head?, 0x80 ≤ b' := by
      intro b' hb'
      cases held with
      | nil => exact Option.some.inj hb' ▸ hb rfl
      | cons b₀ held => exact hheld b' hb'
    unfold decodeFrom
    cases hr : read p b with
    | whole c => exact ih (by simp) fun _ => rfl
    | more q =>
      refine ih (hhead (fun h => ?_) []) (by simp)
      rw [hp h] at hr
      exact le_of_lead_ne_whole fun c hc => by cases hr.symm.trans hc
    | broken =>
      refine hhead (fun h => ?_) rest
      rw [hp h] at hr
      exact le_of_lead_ne_whole fun c hc => by cases hr.symm.trans hc

end Utf8

theorem RawText.proper_ofBytes (bytes : List UInt8) : (ofBytes bytes).Proper :=
  Utf8.le_head_decodeFrom (by simp) fun _ => rfl

theorem RawText.proper_ofString (t : String) : (ofString t).Proper := by
  intro b hb
  cases hb

/-! ## Text of items -/

@[simp] theorem Grammar.attachedValue_mk (v : List Char) (junk : List UInt8) :
    attachedValue ⟨v, junk⟩ = ⟨withoutEquals v, junk⟩ := by
  unfold attachedValue withoutEquals
  split <;> simp_all

/-! ## Letters -/

namespace Mode

/-- The mode after an argument that leaves `o?` open. -/
def opened : Option OptionSpec → Mode
  | none => ready
  | some o => awaiting o

end Mode

namespace Grammar

variable {g : Grammar}

/-- A cluster is read letter by letter. -/
theorem readCluster_of_cluster (hs : g.schema.Distinct) {cs : List Char} {us : List Occurrence}
    {o? : Option OptionSpec} (h : Cluster g.schema cs us o?) :
    ∃ items, g.readCluster [] cs = (items, .ok (.opened o?)) ∧
      items.map Item.occurrence = us ∧ items.all Item.readable = true := by
  induction h with
  | nil => exact ⟨[], rfl, rfl, rfl⟩
  | @flag o c cs us o? ho hf hc _ ih =>
    obtain ⟨items, hread, hmap, hall⟩ := ih
    refine ⟨.flag o :: items, ?_, ?_, ?_⟩
    · simp [readCluster, (short?_eq_option_iff hs).2 ⟨ho, hc⟩, hf, hread]
    · rw [List.map_cons, hmap]
      rfl
    · rw [List.all_cons, hall]
      rfl
  | @value o c v ho ht hc hv =>
    refine ⟨[.attached o ⟨withoutEquals v, []⟩], ?_, rfl, rfl⟩
    simp [readCluster, (short?_eq_option_iff hs).2 ⟨ho, hc⟩, ht, hv, Mode.opened]
  | @opened o c ho ht hc =>
    refine ⟨[], ?_, rfl, rfl⟩
    simp [readCluster, (short?_eq_option_iff hs).2 ⟨ho, hc⟩, ht, Mode.opened]

/-- Letters that are read, with their text all UTF-8, are a cluster. -/
theorem cluster_of_readCluster (hs : g.schema.Distinct) {junk : List UInt8} {cs : List Char}
    {items : List Item} {m : Mode} (h : g.readCluster junk cs = (items, .ok m))
    (hall : items.all Item.readable = true) :
    junk = [] ∧ ∃ o?, Cluster g.schema cs (items.map Item.occurrence) o? ∧ m = .opened o? := by
  induction cs generalizing items with
  | nil =>
    unfold readCluster at h
    split at h
    · next hj =>
      cases h
      exact ⟨List.isEmpty_iff.1 hj, none, .nil, rfl⟩
    · cases h
  | cons c rest ih =>
    unfold readCluster at h
    split at h
    · cases h
    · cases h
    · cases h
    · next o hc =>
      obtain ⟨ho, hc⟩ := (short?_eq_option_iff hs).1 hc
      split at h
      · next ht =>
        split at h
        · next he =>
          simp only [Bool.and_eq_true, List.isEmpty_iff] at he
          obtain ⟨rfl, rfl⟩ := he
          cases h
          exact ⟨rfl, some o, .opened ho ht hc, rfl⟩
        · next he =>
          cases h
          have hj : junk = [] := by simpa [Item.readable, Item.text?, RawText.readable] using hall
          subst hj
          have hv : rest ≠ [] := by simpa using he
          refine ⟨rfl, none, ?_, rfl⟩
          simpa [Item.occurrence, RawText.text] using Cluster.value ho ht hc hv
      · next hf =>
        rcases hrec : g.readCluster junk rest with ⟨items', next⟩
        rw [hrec] at h
        cases h
        rw [List.all_cons, Bool.and_eq_true] at hall
        obtain ⟨hj, o?, hcl, hm⟩ := ih hrec hall.2
        exact ⟨hj, o?, .flag ho (by simpa using hf) hc hcl, hm⟩

end Grammar

/-! ## Kinds of arguments -/

namespace Token

theorem ofRaw_longName {l : String} (hl : TypableName l) :
    ofRaw (.ofString ("--" ++ l)) = .long (.ofString l) none := by
  obtain ⟨hne, -, he, -⟩ := hl
  have hchars : RawText.ofString ("--" ++ l) = ⟨'-' :: '-' :: l.toList, []⟩ := by
    simp [RawText.ofString]
  rw [hchars, ofRaw_long (by simpa using hne) he]
  rfl

theorem ofRaw_longNameValue {l : String} (hl : TypableName l) (v : String) :
    ofRaw (.ofString ("--" ++ l ++ "=" ++ v)) = .long (.ofString l) (some (.ofString v)) := by
  obtain ⟨-, -, he, -⟩ := hl
  have hchars : RawText.ofString ("--" ++ l ++ "=" ++ v)
      = ⟨'-' :: '-' :: (l.toList ++ '=' :: v.toList), []⟩ := by
    simp [RawText.ofString]
  rw [hchars, ofRaw_longValue he]
  rfl

theorem ofRaw_letters {c : Char} (hc : c ≠ '-') (cs : List Char) :
    ofRaw (.ofString (.ofList ('-' :: c :: cs))) = .cluster ⟨c :: cs, []⟩ := by
  rw [RawText.ofString, String.toList_ofList, ofRaw_cluster hc]

theorem ofRaw_eq_long {a name : RawText} {v? : Option RawText} (h : ofRaw a = .long name v?) :
    ∃ rest, a.chars = '-' :: '-' :: rest ∧ RawText.cutAtEquals ⟨rest, a.junk⟩ = (name, v?) := by
  unfold ofRaw at h
  split at h
  · next rest hchars =>
    split at h
    · cases h
    · refine ⟨rest, hchars, ?_⟩
      cases h
      rfl
  · split at h <;> cases h
  · cases h

theorem ofRaw_eq_cluster {a letters : RawText} (h : ofRaw a = .cluster letters) :
    a = ⟨'-' :: letters.chars, letters.junk⟩ ∧ ¬ (letters.chars = [] ∧ letters.junk = []) := by
  obtain ⟨chars, junk⟩ := a
  unfold ofRaw at h
  split at h
  · split at h <;> cases h
  · next rest _ hchars =>
    split at h
    · cases h
    · next hne =>
      cases h
      refine ⟨RawText.mk.injEq .. ▸ ⟨hchars, rfl⟩, by simpa using hne⟩
  · cases h

end Token

/-- Where a readable name ends: before the first `=`, or else with the whole text. -/
theorem RawText.of_cutAtEquals {rest : List Char} {junk : List UInt8} {name : RawText}
    {v? : Option RawText} (hp : Proper ⟨rest, junk⟩)
    (h : RawText.cutAtEquals ⟨rest, junk⟩ = (name, v?)) (hr : name.readable = true) :
    (v? = none ∧ name = ⟨rest, []⟩ ∧ junk = []) ∨
      ∃ v, v? = some ⟨v, junk⟩ ∧ rest = name.chars ++ '=' :: v := by
  unfold cutAtEquals at h
  rcases hc : cutAt '=' rest with ⟨before, after | after⟩
  · left
    rcases hj : cutAt 0x3D junk with ⟨j, after?⟩
    simp only [hc, hj] at h
    obtain ⟨rfl, rfl⟩ := Prod.mk.inj h
    obtain rfl : j = [] := readable_iff.1 hr
    cases after? with
    | none =>
      obtain rfl := cutAt_none hj
      rw [cutAt_none hc]
      exact ⟨rfl, rfl, rfl⟩
    | some after =>
      -- the byte of `=` is readable, so no text has it first among what cannot be read
      rw [cutAt_some hj] at hp
      exact absurd (hp 0x3D rfl) (by decide)
  · right
    simp only [hc] at h
    obtain ⟨rfl, rfl⟩ := Prod.mk.inj h
    exact ⟨after, rfl, cutAt_some hc⟩

/-! ## One argument -/

namespace Grammar

variable {g : Grammar}

theorem longNamed?_ofString (l : String) : g.longNamed? (.ofString l) = g.long? l := by
  simp [longNamed?]

/-- What names options is read as these options. -/
theorem readToken_of_spells (hs : g.schema.Distinct) (ht : g.schema.Typable) {t : String}
    {us : List Occurrence} {o? : Option OptionSpec} (h : Spells g.schema t us o?) :
    ∃ items, g.readToken (.ofString t) = (items, .ok (.opened o?)) ∧
      items.map Item.occurrence = us ∧ items.all Item.readable = true := by
  cases h with
  | @longFlag o l ho hf hl =>
    have htok := Token.ofRaw_longName ((ht o ho).of_typedLong? hl)
    have hlook : g.long? l = some (.option o) := (long?_eq_option_iff hs ht).2 ⟨ho, hl⟩
    refine ⟨[.flag o], ?_, rfl, rfl⟩
    simp [readToken, htok, readLong, longNamed?_ofString, hlook, hf, Mode.opened]
  | @longValue o l v ho hv hl =>
    have htok := Token.ofRaw_longNameValue ((ht o ho).of_typedLong? hl) v
    have hlook : g.long? l = some (.option o) := (long?_eq_option_iff hs ht).2 ⟨ho, hl⟩
    refine ⟨[.attached o (.ofString v)], ?_, ?_, rfl⟩
    · simp [readToken, htok, readLong, longNamed?_ofString, hlook, hv, Mode.opened]
    · simp [Item.occurrence]
  | @longOpened o l ho hv hl =>
    have htok := Token.ofRaw_longName ((ht o ho).of_typedLong? hl)
    have hlook : g.long? l = some (.option o) := (long?_eq_option_iff hs ht).2 ⟨ho, hl⟩
    refine ⟨[], ?_, rfl, rfl⟩
    simp [readToken, htok, readLong, longNamed?_ofString, hlook, hv, Mode.opened]
  | @letters cs _ _ hne hcl =>
    cases cs with
    | nil => exact absurd rfl hne
    | cons c cs =>
      simp only [readToken, Token.ofRaw_letters (hcl.head_ne ht)]
      exact readCluster_of_cluster hs hcl

theorem longNamed?_eq_some {name : RawText} {n : Named} (h : g.longNamed? name = some n) :
    name.readable = true ∧ g.long? name.text = some n := by
  unfold longNamed? at h
  split at h
  · next hr => exact ⟨hr, h⟩
  · cases h

theorem spells_of_readLong_none (hs : g.schema.Distinct) (ht : g.schema.Typable) {name : RawText}
    {items : List Item} {m : Mode} (h : g.readLong name none = (items, .ok m)) :
    ∃ o?, Spells g.schema ("--" ++ name.text) (items.map Item.occurrence) o? ∧
      m = .opened o? := by
  unfold readLong at h
  cases hn : g.longNamed? name with
  | none =>
    rw [hn] at h
    cases h
  | some n =>
    obtain ⟨-, hlook⟩ := longNamed?_eq_some hn
    rw [hn] at h
    cases n with
    | help => cases h
    | version => cases h
    | option o =>
      obtain ⟨ho, hl⟩ := (long?_eq_option_iff hs ht).1 hlook
      dsimp only at h
      split at h
      · next hv =>
        cases h
        exact ⟨some o, .longOpened ho hv hl, rfl⟩
      · next hf =>
        cases h
        exact ⟨none, .longFlag ho (by simpa using hf) hl, rfl⟩

theorem spells_of_readLong_some (hs : g.schema.Distinct) (ht : g.schema.Typable)
    {name v : RawText} {items : List Item} {m : Mode}
    (h : g.readLong name (some v) = (items, .ok m)) (hall : items.all Item.readable = true) :
    v.readable = true ∧ m = .ready ∧
      Spells g.schema ("--" ++ name.text ++ "=" ++ v.text) (items.map Item.occurrence) none := by
  unfold readLong at h
  cases hn : g.longNamed? name with
  | none =>
    rw [hn] at h
    cases h
  | some n =>
    obtain ⟨-, hlook⟩ := longNamed?_eq_some hn
    rw [hn] at h
    cases n with
    | help => cases h
    | version => cases h
    | option o =>
      obtain ⟨ho, hl⟩ := (long?_eq_option_iff hs ht).1 hlook
      dsimp only at h
      split at h
      · next hv =>
        cases h
        have hr : v.readable = true := by simpa [Item.readable, Item.text?] using hall
        exact ⟨hr, rfl, .longValue _ ho hv hl⟩
      · cases h

theorem readable_of_readLong {name : RawText} {v? : Option RawText} {items : List Item} {m : Mode}
    (h : g.readLong name v? = (items, .ok m)) : name.readable = true := by
  unfold readLong at h
  cases hn : g.longNamed? name with
  | none =>
    rw [hn] at h
    cases h
  | some n => exact (longNamed?_eq_some hn).1

/-- What a long name that is read says, if its value is UTF-8. -/
theorem spells_of_readLong (hs : g.schema.Distinct) (ht : g.schema.Typable) {a name : RawText}
    {v? : Option RawText} {items : List Item} {m : Mode} (hp : a.Proper)
    (htok : Token.ofRaw a = .long name v?) (h : g.readLong name v? = (items, .ok m))
    (hall : items.all Item.readable = true) :
    a.readable = true ∧
      ∃ o?, Spells g.schema a.text (items.map Item.occurrence) o? ∧ m = .opened o? := by
  obtain ⟨chars, junk⟩ := a
  obtain ⟨rest, rfl, hcut⟩ := Token.ofRaw_eq_long htok
  have hp : RawText.Proper ⟨rest, junk⟩ := hp
  have hr : name.readable = true := readable_of_readLong h
  rcases RawText.of_cutAtEquals hp hcut hr with ⟨rfl, rfl, rfl⟩ | ⟨v, rfl, rfl⟩
  · have htext : RawText.text ⟨'-' :: '-' :: rest, []⟩ = "--" ++ RawText.text ⟨rest, []⟩ := by
      rw [← String.toList_inj]
      simp [RawText.text]
    rw [htext]
    exact ⟨rfl, spells_of_readLong_none hs ht h⟩
  · obtain ⟨hr, hm, hspells⟩ := spells_of_readLong_some hs ht h hall
    have htext : RawText.text ⟨'-' :: '-' :: (name.chars ++ '=' :: v), junk⟩
        = "--" ++ name.text ++ "=" ++ RawText.text ⟨v, junk⟩ := by
      rw [← String.toList_inj]
      simp [RawText.text]
    rw [htext]
    exact ⟨hr, none, hspells, hm⟩

/-- What an argument that is read says, if its text is all UTF-8. -/
theorem spells_of_readToken (hs : g.schema.Distinct) (ht : g.schema.Typable) {a : RawText}
    {items : List Item} {m : Mode} (hp : a.Proper) (h : g.readToken a = (items, .ok m))
    (hall : items.all Item.readable = true) :
    a.readable = true ∧
      ((Token.ofRaw a = .escape ∧ items = [] ∧ m = .trailing none) ∨
        (Token.ofRaw a = .plain ∧ items = [.positional a] ∧ m = .ready) ∨
        ∃ o?, Spells g.schema a.text (items.map Item.occurrence) o? ∧ m = .opened o?) := by
  unfold readToken at h
  split at h
  · next htok =>
    cases h
    rw [Token.ofRaw_eq_escape_iff.1 htok]
    exact ⟨rfl, .inl ⟨rfl, rfl, rfl⟩⟩
  · next name v? htok =>
    obtain ⟨hr, hspells⟩ := spells_of_readLong hs ht hp htok h hall
    exact ⟨hr, .inr (.inr hspells)⟩
  · next letters htok =>
    obtain ⟨rfl, hne⟩ := Token.ofRaw_eq_cluster htok
    obtain ⟨hj, o?, hcl, hm⟩ := cluster_of_readCluster hs h hall
    refine ⟨RawText.readable_iff.2 hj, .inr (.inr ⟨o?, ?_, hm⟩)⟩
    exact .letters (fun hcs => hne ⟨hcs, hj⟩) hcl
  · next htok =>
    cases h
    have hr : a.readable = true := by simpa [Item.readable, Item.text?] using hall
    exact ⟨hr, .inr (.inl ⟨htok, rfl, rfl⟩)⟩

end Grammar
end LaunchConfig
