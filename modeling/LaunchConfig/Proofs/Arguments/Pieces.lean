import LaunchConfig.Proofs.Arguments.Joining

/-!
# Pieces of arguments

A piece is the arguments of a single occurrence: a positional argument, a flag, or an option
with its value, which may stand in an argument of its own. Arguments are cut into pieces from
left to right; letters that share one argument are given an argument each.

Pieces may be put together anew. Each then says what it says by itself, but for one case: an
option that is left without its value takes a positional argument that comes right after it.

Results:

* `Cuts.splits`, `Splits.exists_cuts`: what occurs in arguments is what their pieces say;
* `Piece.splits_join`: what pieces say that are put together;
* `Piece.said_of_not_swallows`: when each says what it says by itself.
-/

namespace LaunchConfig

variable {s : Schema}

/-- The arguments of a single occurrence. -/
structure Piece where
  tokens : List String
  meaning : Occurrence
  deriving DecidableEq, Repr

namespace Piece

/-- The arguments say just this. -/
structure Of (s : Schema) (p : Piece) : Prop where
  splits : Splits s p.tokens [p.meaning]
  escape : "--" ∉ p.tokens

/-- The arguments of all pieces, one after the other. -/
def join (ps : List Piece) : List String := ps.flatMap tokens

end Piece

/-- The arguments are cut into the pieces. -/
inductive Cuts (s : Schema) : List String → List Piece → Prop
  | nil : Cuts s [] []
  /-- A piece that has all of its arguments: an option without its value has none after it. -/
  | piece {p : Piece} {ts : List String} {ps : List Piece} :
      p.Of s → (∀ o, p.meaning = .bare o → ∀ t ∈ ts.head?, ¬ Token.IsPlain (.ofString t)) →
        Cuts s ts ps → Cuts s (p.tokens ++ ts) (p :: ps)
  /-- A flag that shares its argument with the letters after it. -/
  | letter {o : OptionSpec} {c d : Char} {cs : List Char} {ts : List String} {ps : List Piece} :
      o ∈ s.options → o.takesValue = false → o.short? = some c → d ≠ '-' →
        Cuts s (.ofList ('-' :: d :: cs) :: ts) ps →
        Cuts s (.ofList ('-' :: c :: d :: cs) :: ts) (⟨[.ofList ['-', c]], .flag o⟩ :: ps)

/-! ## Cutting -/

/-- An argument that begins with a dash and a letter names options by letters. -/
theorem spells_letters_iff {c : Char} {cs : List Char} {us : List Occurrence}
    {o? : Option OptionSpec} (hc : c ≠ '-') :
    Spells s (.ofList ('-' :: c :: cs)) us o? ↔ Cluster s (c :: cs) us o? := by
  refine ⟨fun h => ?_, .letters (List.cons_ne_nil c cs)⟩
  generalize ht : String.ofList ('-' :: c :: cs) = t at h
  have hlist : '-' :: c :: cs = t.toList := by
    rw [← ht, String.toList_ofList]
  cases h with
  | letters _ hcl =>
    rw [String.toList_ofList] at hlist
    cases hlist
    exact hcl
  | longFlag _ _ _ => exact absurd (by simpa using hlist : c = '-' ∧ _).1 hc
  | longValue _ _ _ _ => exact absurd (by simpa using hlist : c = '-' ∧ _).1 hc
  | longOpened _ _ _ => exact absurd (by simpa using hlist : c = '-' ∧ _).1 hc

theorem Spells.cons_letter {d : Char} {cs : List Char} {us : List Occurrence}
    {o? : Option OptionSpec} {o : OptionSpec} {c : Char} (ho : o ∈ s.options)
    (hf : o.takesValue = false) (hc : o.short? = some c) (hd : d ≠ '-')
    (h : Spells s (.ofList ('-' :: d :: cs)) us o?) :
    Spells s (.ofList ('-' :: c :: d :: cs)) (.flag o :: us) o? :=
  .letters (List.cons_ne_nil c _) (.flag ho hf hc ((spells_letters_iff hd).1 h))

theorem Splits.cons_letter {ts : List String} {d : Char} {cs : List Char} {us : List Occurrence}
    {o : OptionSpec} {c : Char} (ho : o ∈ s.options) (hf : o.takesValue = false)
    (hc : o.short? = some c) (hd : d ≠ '-') (h : Splits s (.ofList ('-' :: d :: cs) :: ts) us) :
    Splits s (.ofList ('-' :: c :: d :: cs) :: ts) (.flag o :: us) := by
  generalize ht : String.ofList ('-' :: d :: cs) = t at h
  cases h with
  | positional hplain _ =>
    rw [← ht] at hplain
    simp [Token.IsPlain, RawText.ofString] at hplain
  | named hsp hts =>
    subst ht
    exact .named (hsp.cons_letter ho hf hc hd) hts
  | detached hsp hplain hts =>
    subst ht
    exact .detached (hsp.cons_letter ho hf hc hd) hplain hts
  | bare hsp hhead hts =>
    subst ht
    exact .bare (hsp.cons_letter ho hf hc hd) hhead hts
  | escape ts =>
    have hdash := congrArg String.toList ht
    rw [String.toList_ofList] at hdash
    exact absurd (List.cons.inj (List.cons.inj hdash).2).1 hd

/-- In arguments that are cut occurs what the pieces say. -/
theorem Cuts.splits {ts : List String} {ps : List Piece} (h : Cuts s ts ps) :
    Splits s ts (ps.map Piece.meaning) := by
  induction h with
  | nil => exact .nil
  | @piece p ts ps hp hopen _ ih =>
    refine hp.splits.append hp.escape ih fun o ho => hopen o ?_
    exact Option.some.inj ho
  | letter ho hf hc hd _ ih => exact ih.cons_letter ho hf hc hd

theorem Cuts.forall_of (ht : s.Typable) {ts : List String} {ps : List Piece} (h : Cuts s ts ps) :
    ∀ p ∈ ps, p.Of s := by
  induction h with
  | nil => simp
  | piece hp _ _ ih =>
    rw [List.forall_mem_cons]
    exact ⟨hp, ih⟩
  | @letter o c d cs ts ps ho hf hc hd _ ih =>
    have hne : c ≠ '-' := ((ht o ho).ne_of_short? hc).1
    have hspells : Spells s (.ofList ['-', c]) [.flag o] none :=
      .letters (List.cons_ne_nil c []) (.flag ho hf hc .nil)
    rw [List.forall_mem_cons]
    refine ⟨⟨.named hspells .nil, ?_⟩, ih⟩
    rw [List.mem_singleton, ← String.toList_inj, String.toList_ofList]
    simpa using hne.symm

/-! ## All arguments can be cut -/

theorem Spells.ne_escape (ht : s.Typable) {t : String} {us : List Occurrence}
    {o? : Option OptionSpec} (h : Spells s t us o?) : t ≠ "--" := by
  have hlong {o : OptionSpec} {l : String} (ho : o ∈ s.options) (hl : o.typedLong? = some l) :
      l ≠ "" := ((ht o ho).of_typedLong? hl).1
  intro he
  have hlist := congrArg String.toList he
  cases h with
  | longFlag ho _ hl => exact hlong ho hl (by simpa using hlist)
  | longValue v ho _ hl => simp at hlist
  | longOpened ho _ hl => exact hlong ho hl (by simpa using hlist)
  | @letters cs _ _ _ hcl =>
    rw [String.toList_ofList] at hlist
    obtain rfl : cs = ['-'] := (List.cons.inj hlist).2
    exact hcl.head_ne ht rfl

theorem ne_escape_of_isPlain {t : String} (ht : Token.IsPlain (.ofString t)) : t ≠ "--" := by
  rintro rfl
  exact absurd ht (by decide)

namespace Cuts

variable {t v : String} {ts : List String} {ps : List Piece} {o : OptionSpec}

theorem positional (hplain : Token.IsPlain (.ofString t)) (hps : Cuts s ts ps) :
    Cuts s (t :: ts) (⟨[t], .positional t⟩ :: ps) := by
  have hp : Piece.Of s ⟨[t], .positional t⟩ :=
    ⟨.positional hplain .nil, by simpa using (ne_escape_of_isPlain hplain).symm⟩
  exact .piece hp nofun hps

/-- An argument in which a single option occurs is a piece. -/
theorem named (ht : s.Typable) {u : Occurrence} (h : Spells s t [u] none) (hps : Cuts s ts ps) :
    Cuts s (t :: ts) (⟨[t], u⟩ :: ps) := by
  have hp : Piece.Of s ⟨[t], u⟩ := ⟨.named h .nil, by simpa using (h.ne_escape ht).symm⟩
  have hbare (o : OptionSpec) (hu : u = .bare o) : False :=
    h.bare_notMem o (List.mem_singleton.2 hu.symm)
  exact .piece hp (fun o hu => (hbare o hu).elim) hps

/-- An option and the argument after it, which is its value. -/
theorem detached (ht : s.Typable) (h : Spells s t [] (some o))
    (hv : Token.IsPlain (.ofString v)) (hps : Cuts s ts ps) :
    Cuts s (t :: v :: ts) (⟨[t, v], .valued o v⟩ :: ps) := by
  have hp : Piece.Of s ⟨[t, v], .valued o v⟩ :=
    ⟨.detached h hv .nil,
      by simpa using ⟨(h.ne_escape ht).symm, (ne_escape_of_isPlain hv).symm⟩⟩
  exact .piece hp nofun hps

/-- An option that is left without its value. -/
theorem bare (ht : s.Typable) (h : Spells s t [] (some o))
    (hhead : ∀ v ∈ ts.head?, ¬ Token.IsPlain (.ofString v)) (hps : Cuts s ts ps) :
    Cuts s (t :: ts) (⟨[t], .bare o⟩ :: ps) := by
  have hp : Piece.Of s ⟨[t], .bare o⟩ :=
    ⟨.bare h nofun .nil, by simpa using (h.ne_escape ht).symm⟩
  exact .piece hp (fun _ _ => hhead) hps

end Cuts

/-- Letters that share an argument are cut from left to right. What becomes of an option that
    the last of them leaves open is up to `hopen`. -/
theorem Cluster.exists_cuts (ht : s.Typable) {cs : List Char} {us vs : List Occurrence}
    {o? : Option OptionSpec} {ts : List String} (h : Cluster s cs us o?) (hcs : cs ≠ [])
    (hdone : o? = none → ∃ ps, Cuts s ts ps ∧ ps.map Piece.meaning = vs)
    (hopen : ∀ o t, o? = some o → Spells s t [] (some o) →
      ∃ ps, Cuts s (t :: ts) ps ∧ ps.map Piece.meaning = vs) :
    ∃ ps, Cuts s (.ofList ('-' :: cs) :: ts) ps ∧ ps.map Piece.meaning = us ++ vs := by
  induction h with
  | nil => exact absurd rfl hcs
  | @value o c v ho htakes hc hv =>
    obtain ⟨ps, hps, rfl⟩ := hdone rfl
    have hsp := Spells.letters (List.cons_ne_nil c v) (.value ho htakes hc hv)
    exact ⟨_, .named ht hsp hps, rfl⟩
  | @opened o c ho htakes hc =>
    exact hopen o _ rfl (.letters (List.cons_ne_nil c []) (.opened ho htakes hc))
  | @flag o c cs us o? ho hf hc hcl ih =>
    cases cs with
    | nil =>
      cases hcl
      obtain ⟨ps, hps, rfl⟩ := hdone rfl
      have hsp := Spells.letters (List.cons_ne_nil c []) (.flag ho hf hc .nil)
      exact ⟨_, .named ht hsp hps, rfl⟩
    | cons d cs =>
      obtain ⟨ps, hps, hmeaning⟩ := ih (List.cons_ne_nil d cs) hdone hopen
      exact ⟨_, .letter ho hf hc (hcl.head_ne ht) hps, congrArg (Occurrence.flag o :: ·) hmeaning⟩

theorem Spells.exists_cuts (ht : s.Typable) {t : String} {us vs : List Occurrence}
    {o? : Option OptionSpec} {ts : List String} (h : Spells s t us o?)
    (hdone : o? = none → ∃ ps, Cuts s ts ps ∧ ps.map Piece.meaning = vs)
    (hopen : ∀ o t, o? = some o → Spells s t [] (some o) →
      ∃ ps, Cuts s (t :: ts) ps ∧ ps.map Piece.meaning = vs) :
    ∃ ps, Cuts s (t :: ts) ps ∧ ps.map Piece.meaning = us ++ vs := by
  cases h with
  | longFlag ho hf hl =>
    obtain ⟨ps, hps, rfl⟩ := hdone rfl
    exact ⟨_, .named ht (.longFlag ho hf hl) hps, rfl⟩
  | longValue v ho htakes hl =>
    obtain ⟨ps, hps, rfl⟩ := hdone rfl
    exact ⟨_, .named ht (.longValue v ho htakes hl) hps, rfl⟩
  | longOpened ho htakes hl => exact hopen _ _ rfl (.longOpened ho htakes hl)
  | letters hcs hcl => exact hcl.exists_cuts ht hcs hdone hopen

/-- Arguments before the end of the options can be cut into pieces. -/
theorem Splits.exists_cuts (ht : s.Typable) {ts : List String} {us : List Occurrence}
    (h : Splits s ts us) (hescape : "--" ∉ ts) :
    ∃ ps, Cuts s ts ps ∧ ps.map Piece.meaning = us := by
  induction h with
  | nil => exact ⟨[], .nil, rfl⟩
  | @positional t ts us hplain _ ih =>
    rw [List.mem_cons, not_or] at hescape
    obtain ⟨ps, hps, rfl⟩ := ih hescape.2
    exact ⟨_, .positional hplain hps, rfl⟩
  | named hsp _ ih =>
    rw [List.mem_cons, not_or] at hescape
    exact hsp.exists_cuts ht (fun _ => ih hescape.2) nofun
  | @detached t v ts us ws o hsp hplain _ ih =>
    rw [List.mem_cons, List.mem_cons, not_or, not_or] at hescape
    obtain ⟨ps, hps, rfl⟩ := ih hescape.2.2
    refine hsp.exists_cuts ht nofun fun o' t' ho' hsp' => ?_
    obtain rfl : o = o' := Option.some.inj ho'
    exact ⟨_, .detached ht hsp' hplain hps, rfl⟩
  | @bare t ts us ws o hsp hhead _ ih =>
    rw [List.mem_cons, not_or] at hescape
    obtain ⟨ps, hps, rfl⟩ := ih hescape.2
    refine hsp.exists_cuts ht nofun fun o' t' ho' hsp' => ?_
    obtain rfl : o = o' := Option.some.inj ho'
    exact ⟨_, .bare ht hsp' hhead hps, rfl⟩
  | escape ts => simp at hescape

/-! ## Putting together -/

namespace Piece

/-- What pieces say that are put together: an option without its value takes a positional
    argument after it. -/
def said : List Piece → List Occurrence
  | ⟨_, .bare o⟩ :: ⟨_, .positional t⟩ :: ps => .valued o t :: said ps
  | p :: ps => p.meaning :: said ps
  | [] => []

/-- An option without its value is right before a positional argument. -/
def Swallows (ps : List Piece) : Prop :=
  ∃ o t, [.bare o, .positional t] <:+: ps.map Piece.meaning

/-- A positional argument is a piece by itself. -/
theorem Of.tokens_eq {p : Piece} (hp : p.Of s) {t : String} (ht : p.meaning = .positional t) :
    p.tokens = [t] ∧ Token.IsPlain (.ofString t) := by
  obtain ⟨hsplits, hescape⟩ := hp
  rw [ht] at hsplits
  generalize hus : [Occurrence.positional t] = us at hsplits
  generalize p.tokens = ts at hsplits hescape
  cases hsplits with
  | nil => cases hus
  | positional hplain hts =>
    cases hus
    rw [List.mem_cons, not_or] at hescape
    rw [hts.eq_nil hescape.2]
    exact ⟨rfl, hplain⟩
  | named hsp _ =>
    rcases List.singleton_eq_append_iff.1 hus with ⟨rfl, -⟩ | ⟨rfl, -⟩
    · exact absurd rfl hsp.ne_nil
    · obtain ⟨o, ho⟩ := hsp.exists_gives _ (List.mem_singleton.2 rfl)
      cases ho
  | detached _ _ _ =>
    rcases List.singleton_eq_append_iff.1 hus with ⟨-, h⟩ | ⟨-, h⟩ <;> cases h
  | bare _ _ _ =>
    rcases List.singleton_eq_append_iff.1 hus with ⟨-, h⟩ | ⟨-, h⟩ <;> cases h
  | escape ts => simp at hescape

/-- Any other piece begins with an argument that is no value. -/
theorem Of.head_tokens {p : Piece} (hp : p.Of s) : ∃ t ts, p.tokens = t :: ts ∧
    (Token.IsPlain (.ofString t) → p.meaning = .positional t) := by
  have hsplits := hp.splits
  cases htokens : p.tokens with
  | nil =>
    rw [htokens] at hsplits
    cases hsplits
  | cons t ts =>
    rw [htokens] at hsplits
    refine ⟨t, ts, rfl, fun hplain => ?_⟩
    obtain ⟨us, hus, -⟩ := hsplits.of_isPlain hplain
    exact (List.cons.inj hus).1

/-- **What pieces say that are put together**, before the rest of the arguments. -/
theorem splits_join {ps : List Piece} (hps : ∀ p ∈ ps, p.Of s) {rest : List String}
    {vs : List Occurrence} (hrest : Splits s rest vs)
    (hhead : ∀ t ∈ rest.head?, ¬ Token.IsPlain (.ofString t)) :
    Splits s (join ps ++ rest) (said ps ++ vs) := by
  fun_induction said ps with
  | case1 ts o ts' t ps ih =>
    rw [List.forall_mem_cons, List.forall_mem_cons] at hps
    obtain ⟨hopen, hpositional, hps⟩ := hps
    obtain ⟨rfl, hplain⟩ : ts' = [t] ∧ Token.IsPlain (.ofString t) := hpositional.tokens_eq rfl
    have h := hopen.splits.append_opened hopen.escape rfl hplain (ih hps)
    simpa [join] using h
  | case2 p ps hne ih =>
    rw [List.forall_mem_cons] at hps
    have hopen : ∀ o, [p.meaning].getLast? = some (.bare o) →
        ∀ t ∈ (join ps ++ rest).head?, ¬ Token.IsPlain (.ofString t) := by
      intro o ho t ht hplain
      cases ps with
      | nil => exact hhead t ht hplain
      | cons q qs =>
        obtain ⟨t', ts', htokens, hq⟩ := (hps.2 q List.mem_cons_self).head_tokens
        obtain rfl : t' = t := by simpa [join, htokens] using ht
        obtain ⟨tokens, meaning⟩ := p
        obtain ⟨tokens', meaning'⟩ := q
        obtain rfl : meaning = .bare o := Option.some.inj ho
        obtain rfl : meaning' = .positional t' := hq hplain
        exact hne tokens o tokens' t' qs rfl rfl
    have h := hps.1.splits.append hps.1.escape (ih hps.2) hopen
    simpa [join] using h
  | case3 => exact hrest

/-! ## What each says by itself -/

theorem Swallows.of_cons {p : Piece} {ps : List Piece} (h : Swallows (p :: ps)) :
    (∃ o t q qs, ps = q :: qs ∧ p.meaning = .bare o ∧ q.meaning = .positional t) ∨
      Swallows ps := by
  obtain ⟨o, t, h⟩ := h
  rw [List.map_cons, List.infix_cons_iff, List.cons_prefix_cons] at h
  rcases h with ⟨hp, h⟩ | h
  · cases ps with
    | nil => simp at h
    | cons q qs =>
      rw [List.map_cons, List.cons_prefix_cons] at h
      exact .inl ⟨o, t, q, qs, rfl, hp.symm, h.1.symm⟩
  · exact .inr ⟨o, t, h⟩

theorem Swallows.tail {p : Piece} {ps : List Piece} (h : Swallows (p :: ps))
    (hne : ∀ ts o ts' t qs, p = ⟨ts, .bare o⟩ → ps = ⟨ts', .positional t⟩ :: qs → False) :
    Swallows ps := by
  rcases h.of_cons with ⟨o, t, q, qs, rfl, hp, hq⟩ | htail
  · obtain ⟨tokens, meaning⟩ := p
    obtain ⟨tokens', meaning'⟩ := q
    obtain rfl : meaning = .bare o := hp
    obtain rfl : meaning' = .positional t := hq
    exact (hne tokens o tokens' t qs rfl rfl).elim
  · exact htail

/-- Where no option takes an argument that was none of its own, each piece says what it says by
    itself. -/
theorem said_of_not_swallows {ps : List Piece} (h : ¬ Swallows ps) :
    said ps = ps.map meaning := by
  fun_induction said ps with
  | case1 ts o ts' t ps _ =>
    exact absurd ⟨o, t, [], ps.map meaning, rfl⟩ h
  | case2 p ps _ ih =>
    have htail : ¬ Swallows ps := fun ⟨o, t, ht⟩ =>
      h ⟨o, t, List.infix_cons_iff.2 (.inr ht)⟩
    rw [List.map_cons, ih htail]
  | case3 => rfl

theorem filterMap_option?_said (ps : List Piece) :
    (said ps).filterMap Occurrence.option? = (ps.map meaning).filterMap Occurrence.option? := by
  fun_induction said ps with
  | case1 ts o ts' t ps ih => simp [List.filterMap_cons, Occurrence.option?, ih]
  | case2 p ps _ ih => rw [List.filterMap_cons, List.map_cons, List.filterMap_cons, ih]
  | case3 => rfl

theorem valued_mem_said {ps : List Piece} {o : OptionSpec} {v : String}
    (h : .valued o v ∈ ps.map meaning) : .valued o v ∈ said ps := by
  fun_induction said ps with
  | case1 ts o' ts' t ps ih =>
    have htail : .valued o v ∈ ps.map meaning := by simpa using h
    exact List.mem_cons_of_mem _ (ih htail)
  | case2 p ps _ ih =>
    rw [List.map_cons, List.mem_cons] at h
    exact List.mem_cons.2 (h.imp id ih)
  | case3 => exact h

theorem bare_mem_of_said {ps : List Piece} {o : OptionSpec} (h : .bare o ∈ said ps) :
    .bare o ∈ ps.map meaning := by
  fun_induction said ps with
  | case1 ts o' ts' t ps ih =>
    have htail : .bare o ∈ said ps := by simpa using h
    exact List.mem_cons_of_mem _ (List.mem_cons_of_mem _ (ih htail))
  | case2 p ps _ ih => exact List.mem_cons.2 ((List.mem_cons.1 h).imp id ih)
  | case3 => exact h

theorem filterMap_valueFor?_said {ps : List Piece} {id : String}
    (h : ∀ o, .bare o ∈ ps.map meaning → o.id ≠ id) :
    (said ps).filterMap (Occurrence.valueFor? id)
      = (ps.map meaning).filterMap (Occurrence.valueFor? id) := by
  fun_induction said ps with
  | case1 ts o ts' t ps ih =>
    have hne : o.id ≠ id := h o List.mem_cons_self
    have htail := ih fun o' ho' => h o' (List.mem_cons_of_mem _ (List.mem_cons_of_mem _ ho'))
    simp [List.filterMap_cons, Occurrence.valueFor?, hne, htail]
  | case2 p ps _ ih =>
    have htail := ih fun o' ho' => h o' (List.mem_cons_of_mem _ ho')
    rw [List.filterMap_cons, List.map_cons, List.filterMap_cons, htail]
  | case3 => rfl

theorem length_values_le (ps : List Piece) (id : String) :
    ((ps.map meaning).filterMap (Occurrence.valueFor? id)).length
      ≤ ((said ps).filterMap (Occurrence.valueFor? id)).length := by
  fun_induction said ps with
  | case1 ts o ts' t ps ih =>
    have hle : ((said ps).filterMap (Occurrence.valueFor? id)).length
        ≤ ((.valued o t :: said ps).filterMap (Occurrence.valueFor? id)).length :=
      ((List.sublist_cons_self _ _).filterMap _).length_le
    exact Nat.le_trans ih hle
  | case2 p ps _ ih =>
    rw [List.map_cons, List.filterMap_cons, List.filterMap_cons]
    cases p.meaning.valueFor? id with
    | none => exact ih
    | some v => exact Nat.succ_le_succ ih
  | case3 => exact Nat.le_refl 0

/-- An option that takes such an argument has a value more. -/
theorem Swallows.exists_length_values_lt {ps : List Piece} (h : Swallows ps) :
    ∃ id, ((ps.map meaning).filterMap (Occurrence.valueFor? id)).length
      < ((said ps).filterMap (Occurrence.valueFor? id)).length := by
  fun_induction said ps with
  | case1 ts o ts' t ps _ =>
    refine ⟨o.id, Nat.lt_of_le_of_lt (length_values_le ps o.id) ?_⟩
    simp [Occurrence.valueFor?]
  | case2 p ps hne ih =>
    obtain ⟨id, hlt⟩ := ih (h.tail hne)
    refine ⟨id, ?_⟩
    rw [List.map_cons, List.filterMap_cons, List.filterMap_cons]
    cases p.meaning.valueFor? id with
    | none => exact hlt
    | some v => exact Nat.succ_lt_succ hlt
  | case3 =>
    obtain ⟨o, t, h⟩ := h
    simp at h

end Piece
end LaunchConfig
