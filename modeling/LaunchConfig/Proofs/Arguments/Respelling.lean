import Mathlib.Logic.Relation
import LaunchConfig.Proofs.Arguments.Mixing

/-!
# Spellings of an option

An option is typed by its letter or by its long name, and its value in the same argument or
in the one after it; letters of flags may share an argument with what follows them. Before
the end of the options it makes no difference which of these ways is taken, each time that
the option is given: the arguments are read as the same command line.

Results:

* `Spelling.splits_iff`: a spelling of an occurrence says this occurrence;
* `Respells.splits_iff`: in another spelling arguments say the same;
* `Schema.parse_respelled_iff`, `parse_respelled`: and they are read alike.
-/

namespace LaunchConfig

open BuildOption (dryRun initScript tasks)

variable {s : Schema}

/-- The ways to type one occurrence of the option. A value that stands in an argument of its own
    must not look like an option, and one that comes right after the letter must not begin with
    `=`, which would be dropped. -/
inductive Spelling (o : OptionSpec) : Occurrence → List String → Prop
  | letter {c : Char} :
      o.takesValue = false → o.short? = some c → Spelling o (.flag o) [.ofList ['-', c]]
  | long {l : String} :
      o.takesValue = false → o.typedLong? = some l → Spelling o (.flag o) ["--" ++ l]
  | letterEquals {c : Char} (v : String) :
      o.takesValue = true → o.short? = some c →
        Spelling o (.valued o v) [.ofList ('-' :: c :: '=' :: v.toList)]
  | longEquals {l : String} (v : String) :
      o.takesValue = true → o.typedLong? = some l →
        Spelling o (.valued o v) ["--" ++ l ++ "=" ++ v]
  | letterApart {c : Char} {v : String} :
      o.takesValue = true → o.short? = some c → Token.IsPlain (.ofString v) →
        Spelling o (.valued o v) [.ofList ['-', c], v]
  | longApart {l v : String} :
      o.takesValue = true → o.typedLong? = some l → Token.IsPlain (.ofString v) →
        Spelling o (.valued o v) ["--" ++ l, v]
  | letterJoined {c : Char} {v : String} :
      o.takesValue = true → o.short? = some c → v ≠ "" → v.toList.head? ≠ some '=' →
        Spelling o (.valued o v) [.ofList ('-' :: c :: v.toList)]

/-- Before the end of the options one occurrence is typed in another way, or letters of flags
    get an argument each. What is left of their argument begins with another flag, or with an
    option that has its value there or in the next argument. -/
inductive Respells (s : Schema) : List String → List String → Prop
  | exchanged {o : OptionSpec} {u : Occurrence} {ts ts' : List String}
      (before after : List String) :
      o ∈ s.options → Spelling o u ts → Spelling o u ts' → "--" ∉ before →
        Respells s (before ++ (ts ++ after)) (before ++ (ts' ++ after))
  | parted (cs : List Char) {ds : List Char} {d : Char} (before after : List String) :
      (∀ c ∈ cs, ∃ o ∈ s.options, o.takesValue = false ∧ o.short? = some c) → d ≠ '-' →
        "--" ∉ before →
        Respells s (before ++ .ofList ('-' :: (cs ++ d :: ds)) :: after)
          (before ++ (cs.map (fun c => .ofList ['-', c]) ++ .ofList ('-' :: d :: ds) :: after))

/-- One list of arguments is the other in other spellings: letters may also be put together
    again, and as many occurrences be typed in another way as one likes. -/
def Respelled (s : Schema) : List String → List String → Prop := Relation.EqvGen (Respells s)

/-! ## What an argument says -/

/-- An argument names options in one way only. -/
theorem Spells.unique (hs : s.Distinct) (ht : s.Typable) {t : String} {us vs : List Occurrence}
    {o? o?' : Option OptionSpec} (h : Spells s t us o?) (h' : Spells s t vs o?') :
    us = vs ∧ o? = o?' := by
  obtain ⟨items, hread, rfl, -⟩ := Grammar.readToken_of_spells (g := ⟨s, false⟩) hs ht h
  obtain ⟨items', hread', rfl, -⟩ := Grammar.readToken_of_spells (g := ⟨s, false⟩) hs ht h'
  obtain ⟨rfl, hmode⟩ := Prod.mk.inj (hread.symm.trans hread')
  refine ⟨rfl, ?_⟩
  cases o? <;> cases o?' <;> cases hmode <;> rfl

/-- An argument that leaves nothing open says what it says before the arguments after it. -/
theorem Spells.splits_iff (hs : s.Distinct) (ht : s.Typable) {t : String} {us ws : List Occurrence}
    {ts : List String} (h : Spells s t us none) :
    Splits s (t :: ts) ws ↔ ∃ vs, ws = us ++ vs ∧ Splits s ts vs := by
  constructor
  · intro hsplits
    cases hsplits with
    | positional hplain _ => exact absurd hplain h.not_isPlain
    | named hsp hts =>
      obtain ⟨rfl, -⟩ := h.unique hs ht hsp
      exact ⟨_, rfl, hts⟩
    | detached hsp _ _ => cases (h.unique hs ht hsp).2
    | bare hsp _ _ => cases (h.unique hs ht hsp).2
    | escape ts => exact absurd rfl (h.ne_escape ht)
  · rintro ⟨vs, rfl, hts⟩
    exact .named h hts

theorem Spells.splits_value_iff (hs : s.Distinct) (ht : s.Typable) {t v : String}
    {us ws : List Occurrence} {ts : List String} {o : OptionSpec} (h : Spells s t us (some o))
    (hv : Token.IsPlain (.ofString v)) :
    Splits s (t :: v :: ts) ws ↔ ∃ vs, ws = us ++ .valued o v :: vs ∧ Splits s ts vs := by
  constructor
  · intro hsplits
    cases hsplits with
    | positional hplain _ => exact absurd hplain h.not_isPlain
    | named hsp hts => cases (h.unique hs ht hsp).2
    | detached hsp _ hts =>
      obtain ⟨rfl, ho⟩ := h.unique hs ht hsp
      obtain rfl := Option.some.inj ho
      exact ⟨_, rfl, hts⟩
    | bare hsp hhead _ => exact absurd hv (hhead v rfl)
    | escape ts => exact absurd rfl (h.ne_escape ht)
  · rintro ⟨vs, rfl, hts⟩
    exact .detached h hv hts

/-- A spelling is an argument that says the occurrence, or one that leaves the option open
    and the value after it. -/
theorem Spelling.cases {o : OptionSpec} (ho : o ∈ s.options) {u : Occurrence} {ts : List String}
    (h : Spelling o u ts) :
    (∃ t, ts = [t] ∧ Spells s t [u] none) ∨
      ∃ t v, ts = [t, v] ∧ u = .valued o v ∧ Spells s t [] (some o) ∧
        Token.IsPlain (.ofString v) := by
  cases h with
  | letter hf hc => exact .inl ⟨_, rfl, .letters (List.cons_ne_nil _ []) (.flag ho hf hc .nil)⟩
  | long hf hl => exact .inl ⟨_, rfl, .longFlag ho hf hl⟩
  | @letterEquals c v hv hc =>
    have h := Spells.letters (List.cons_ne_nil c _)
      (.value ho hv hc (List.cons_ne_nil '=' v.toList))
    rw [withoutEquals, String.ofList_toList] at h
    exact .inl ⟨_, rfl, h⟩
  | longEquals v hv hl => exact .inl ⟨_, rfl, .longValue v ho hv hl⟩
  | letterApart hv hc hplain =>
    exact .inr ⟨_, _, rfl, rfl, .letters (List.cons_ne_nil _ []) (.opened ho hv hc), hplain⟩
  | longApart hv hl hplain => exact .inr ⟨_, _, rfl, rfl, .longOpened ho hv hl, hplain⟩
  | @letterJoined c v hv hc hne hequals =>
    have hvalue : withoutEquals v.toList = v.toList := by
      unfold withoutEquals
      split
      · next v' hlist =>
        rw [hlist] at hequals
        exact absurd rfl hequals
      · rfl
    have h := Spells.letters (List.cons_ne_nil c _)
      (.value ho hv hc (fun hnil => hne (String.toList_eq_nil_iff.1 hnil)))
    rw [hvalue, String.ofList_toList] at h
    exact .inl ⟨_, rfl, h⟩

/-- In any spelling an occurrence comes first, and then what the arguments after it say. -/
theorem Spelling.splits_iff (hs : s.Distinct) (ht : s.Typable) {o : OptionSpec}
    (ho : o ∈ s.options) {u : Occurrence} {ts : List String} (h : Spelling o u ts)
    (after : List String) (us : List Occurrence) :
    Splits s (ts ++ after) us ↔ ∃ vs, us = u :: vs ∧ Splits s after vs := by
  rcases h.cases ho with ⟨t, rfl, hsp⟩ | ⟨t, v, rfl, rfl, hsp, hplain⟩
  · exact hsp.splits_iff hs ht
  · exact hsp.splits_value_iff hs ht hplain

theorem Spelling.not_isPlain_head {o : OptionSpec} (ho : o ∈ s.options) {u : Occurrence}
    {ts : List String} (h : Spelling o u ts) (after : List String) :
    ∀ t ∈ (ts ++ after).head?, ¬ Token.IsPlain (.ofString t) := by
  intro t ht
  rcases h.cases ho with ⟨t', rfl, hsp⟩ | ⟨t', v, rfl, -, hsp, -⟩
  · obtain rfl : t' = t := Option.some.inj ht
    exact hsp.not_isPlain
  · obtain rfl : t' = t := Option.some.inj ht
    exact hsp.not_isPlain

/-! ## Letters that share an argument -/

theorem not_isPlain_letters {cs : List Char} (h : cs ≠ []) :
    ¬ Token.IsPlain (.ofString (.ofList ('-' :: cs))) := by
  simpa [Token.IsPlain, RawText.ofString] using h

theorem not_isPlain_head_letters {cs : List Char} (h : cs ≠ []) (ts : List String) :
    ∀ t ∈ (String.ofList ('-' :: cs) :: ts).head?, ¬ Token.IsPlain (.ofString t) := by
  intro t ht
  obtain rfl := Option.some.inj ht
  exact not_isPlain_letters h

theorem Cluster.cons_flag_iff (hs : s.Distinct) {o : OptionSpec} (ho : o ∈ s.options)
    (hf : o.takesValue = false) {c : Char} (hc : o.short? = some c) {cs : List Char}
    {us : List Occurrence} {o? : Option OptionSpec} :
    Cluster s (c :: cs) us o? ↔ ∃ vs, us = .flag o :: vs ∧ Cluster s cs vs o? := by
  have heq {o' : OptionSpec} (ho' : o' ∈ s.options) (hc' : o'.short? = some c) : o = o' :=
    hs.eq_of_id ho ho' (OptionSpec.id_eq_of_short? hc hc')
  constructor
  · intro h
    cases h with
    | flag ho' _ hc' hcl =>
      obtain rfl := heq ho' hc'
      exact ⟨_, rfl, hcl⟩
    | value ho' htakes hc' _ =>
      obtain rfl := heq ho' hc'
      cases hf.symm.trans htakes
    | opened ho' htakes hc' =>
      obtain rfl := heq ho' hc'
      cases hf.symm.trans htakes
  · rintro ⟨vs, rfl, hcl⟩
    exact .flag ho hf hc hcl

theorem Splits.cons_letter_iff (hs : s.Distinct) (ht : s.Typable) {o : OptionSpec}
    (ho : o ∈ s.options) (hf : o.takesValue = false) {c d : Char} (hc : o.short? = some c)
    (hd : d ≠ '-') {cs : List Char} {ts : List String} {us : List Occurrence} :
    Splits s (.ofList ('-' :: c :: d :: cs) :: ts) us ↔
      ∃ vs, us = .flag o :: vs ∧ Splits s (.ofList ('-' :: d :: cs) :: ts) vs := by
  have hne : c ≠ '-' := ((ht o ho).ne_of_short? hc).1
  have hspells {us : List Occurrence} {o? : Option OptionSpec}
      (h : Spells s (.ofList ('-' :: c :: d :: cs)) us o?) :
      ∃ vs, us = .flag o :: vs ∧ Spells s (.ofList ('-' :: d :: cs)) vs o? := by
    rw [spells_letters_iff hne, Cluster.cons_flag_iff hs ho hf hc] at h
    obtain ⟨vs, rfl, hcl⟩ := h
    exact ⟨vs, rfl, (spells_letters_iff hd).2 hcl⟩
  constructor
  · intro h
    generalize htoken : String.ofList ('-' :: c :: d :: cs) = t at h
    cases h with
    | positional hplain _ =>
      rw [← htoken] at hplain
      exact absurd hplain (not_isPlain_letters (List.cons_ne_nil c _))
    | named hsp hts =>
      subst htoken
      obtain ⟨vs, rfl, hrest⟩ := hspells hsp
      exact ⟨_, rfl, .named hrest hts⟩
    | detached hsp hplain hts =>
      subst htoken
      obtain ⟨vs, rfl, hrest⟩ := hspells hsp
      exact ⟨_, rfl, .detached hrest hplain hts⟩
    | bare hsp hhead hts =>
      subst htoken
      obtain ⟨vs, rfl, hrest⟩ := hspells hsp
      exact ⟨_, rfl, .bare hrest hhead hts⟩
    | escape ts =>
      have hdash := congrArg String.toList htoken
      rw [String.toList_ofList] at hdash
      exact absurd (List.cons.inj (List.cons.inj hdash).2).1 hne
  · rintro ⟨vs, rfl, h⟩
    exact h.cons_letter ho hf hc hd

theorem Splits.letters_iff (hs : s.Distinct) (ht : s.Typable) {cs : List Char} {d : Char}
    (hcs : ∀ c ∈ cs, ∃ o ∈ s.options, o.takesValue = false ∧ o.short? = some c) (hd : d ≠ '-')
    (ds : List Char) (ts : List String) (us : List Occurrence) :
    Splits s (.ofList ('-' :: (cs ++ d :: ds)) :: ts) us ↔
      Splits s (cs.map (fun c => .ofList ['-', c]) ++ .ofList ('-' :: d :: ds) :: ts) us := by
  induction cs generalizing us with
  | nil => rfl
  | cons c cs ih =>
    rw [List.forall_mem_cons] at hcs
    obtain ⟨⟨o, ho, hf, hc⟩, hcs⟩ := hcs
    -- a flag or the rest comes next, and neither is a dash
    obtain ⟨d', ds', hnext, hd'⟩ : ∃ d' ds', cs ++ d :: ds = d' :: ds' ∧ d' ≠ '-' := by
      cases cs with
      | nil => exact ⟨d, ds, rfl, hd⟩
      | cons c' cs =>
        obtain ⟨o', ho', -, hc'⟩ := hcs c' List.mem_cons_self
        exact ⟨c', _, rfl, ((ht o' ho').ne_of_short? hc').1⟩
    have hletter : Spelling o (.flag o) [.ofList ['-', c]] := .letter hf hc
    have hrest := hletter.splits_iff hs ht ho
      (cs.map (fun c => .ofList ['-', c]) ++ .ofList ('-' :: d :: ds) :: ts) us
    rw [List.singleton_append] at hrest
    rw [List.map_cons, List.cons_append, List.cons_append, hrest, hnext,
      Splits.cons_letter_iff hs ht ho hf hc hd', ← hnext]
    simp only [ih hcs]

/-! ## In other spellings -/

theorem Splits.of_append {before ts ts' : List String} {us : List Occurrence}
    (hescape : "--" ∉ before) (hts : ∀ t ∈ ts.head?, ¬ Token.IsPlain (.ofString t))
    (hts' : ∀ t ∈ ts'.head?, ¬ Token.IsPlain (.ofString t))
    (h : ∀ vs, Splits s ts vs → Splits s ts' vs) (hall : Splits s (before ++ ts) us) :
    Splits s (before ++ ts') us := by
  obtain ⟨vs, ws, rfl, hbefore, hrest⟩ := hall.exists_of_append hescape hts
  exact hbefore.append hescape (h ws hrest) fun _ _ => hts'

/-- Arguments say the same when one occurrence is typed in another way, or letters are parted. -/
theorem Respells.splits_iff (hs : s.Distinct) (ht : s.Typable) {ts ts' : List String}
    (h : Respells s ts ts') {us : List Occurrence} : Splits s ts us ↔ Splits s ts' us := by
  cases h with
  | exchanged before after ho hu hu' hescape =>
    have hhead := hu.not_isPlain_head ho after
    have hhead' := hu'.not_isPlain_head ho after
    have hiff (vs : List Occurrence) :=
      (hu.splits_iff hs ht ho after vs).trans (hu'.splits_iff hs ht ho after vs).symm
    exact ⟨.of_append hescape hhead hhead' fun vs => (hiff vs).1,
      .of_append hescape hhead' hhead fun vs => (hiff vs).2⟩
  | @parted cs ds d before after hcs hd hescape =>
    have hhead := not_isPlain_head_letters
      (List.append_ne_nil_of_right_ne_nil cs (List.cons_ne_nil d ds)) after
    have hhead' : ∀ t ∈ (cs.map (fun c => .ofList ['-', c])
        ++ .ofList ('-' :: d :: ds) :: after : List String).head?,
        ¬ Token.IsPlain (.ofString t) := by
      cases cs with
      | nil => exact not_isPlain_head_letters (List.cons_ne_nil d ds) _
      | cons c cs => exact not_isPlain_head_letters (List.cons_ne_nil c []) _
    have hiff (vs : List Occurrence) := Splits.letters_iff hs ht hcs hd ds after vs
    exact ⟨.of_append hescape hhead hhead' fun vs => (hiff vs).1,
      .of_append hescape hhead' hhead fun vs => (hiff vs).2⟩

/-- In other spellings arguments say the same. -/
theorem Respelled.splits_iff (hs : s.Distinct) (ht : s.Typable) {ts ts' : List String}
    (h : Respelled s ts ts') {us : List Occurrence} : Splits s ts us ↔ Splits s ts' us := by
  induction h with
  | rel _ _ hstep => exact hstep.splits_iff hs ht
  | refl _ => rfl
  | symm _ _ _ ih => exact ih.symm
  | trans _ _ _ _ _ ih ih' => exact ih.trans ih'

/-- In other spellings arguments are read as the same command line. -/
theorem Schema.parse_respelled_iff (hs : s.Distinct) (ht : s.Typable) {ts ts' : List String}
    (h : Respelled s ts ts') {p : CommandLine} :
    s.parse (ts.map .ofString) = .ok p ↔ s.parse (ts'.map .ofString) = .ok p := by
  rw [parse_ofString_eq_ok_iff hs ht, parse_ofString_eq_ok_iff hs ht]
  simp only [h.splits_iff hs ht]

/-- **All spellings of an option are read alike.** Arguments that the options of a build accept
    are UTF-8. Typed with other spellings before the end of the options, an option as often as
    one likes and letters together or by themselves, they are accepted and read as the same
    command line. -/
theorem parse_respelled {args : List (List UInt8)} {p : CommandLine}
    (h : (buildSchema .standard).parse (args.map .ofBytes) = .ok p) :
    (∃ ts : List String, args = ts.map (·.toUTF8.data.toList)) ∧
    ∀ ts ts' : List String, args = ts.map (·.toUTF8.data.toList) →
      Respelled (buildSchema .standard) ts ts' →
      (buildSchema .standard).parse ((ts'.map (·.toUTF8.data.toList)).map .ofBytes) = .ok p := by
  have hs := registered_buildSchema_standard.distinct
  have ht := typable_buildSchema_standard
  have hstring (ts : List String) :
      (ts.map (·.toUTF8.data.toList)).map RawText.ofBytes = ts.map .ofString :=
    RawText.map_ofBytes_eq_iff.2 rfl
  obtain ⟨ts, -, hargs, -, -, -⟩ := Schema.exists_splits_of_parse hs ht h
  refine ⟨⟨ts, hargs⟩, ?_⟩
  rintro ts ts' rfl hrespelled
  rw [hstring] at h ⊢
  exact (Schema.parse_respelled_iff hs ht hrespelled).1 h

/-- A flag leaves the argument that it shares with an option, which takes its value into its own
    argument and is typed by its long name, and a long name becomes a letter. After the end of
    the options all stays as it is. -/
theorem parse_respelled_initScript :
    (buildSchema .standard).parse
        ((["-mI", "x", "--tasks", "--", "-m"].map (·.toUTF8.data.toList)).map .ofBytes)
      = .ok ((((∅ : CommandLine).withOption "m").withValues "I" ["x"]).withOption "t"
          |>.withExtra ["tasks", "-m"]) ∧
    Respelled (buildSchema .standard) ["-mI", "x", "--tasks", "--", "-m"]
      ["-m", "--init-script=x", "-t", "--", "-m"] ∧
    (buildSchema .standard).parse
        ((["-m", "--init-script=x", "-t", "--", "-m"].map (·.toUTF8.data.toList)).map .ofBytes)
      = .ok ((((∅ : CommandLine).withOption "m").withValues "I" ["x"]).withOption "t"
          |>.withExtra ["tasks", "-m"]) := by
  have h : (buildSchema .standard).parse
        ((["-mI", "x", "--tasks", "--", "-m"].map (·.toUTF8.data.toList)).map .ofBytes)
      = .ok ((((∅ : CommandLine).withOption "m").withValues "I" ["x"]).withOption "t"
          |>.withExtra ["tasks", "-m"]) := by
    decide +kernel
  have hm : dryRun ∈ (buildSchema .standard).options := mem_options_of_mem_all (by decide)
  have hI : initScript ∈ (buildSchema .standard).options := mem_options_of_mem_all (by decide)
  have htasks : tasks ∈ (buildSchema .standard).options := mem_options_of_mem_all (by decide)
  have hparted : Respells (buildSchema .standard) ["-mI", "x", "--tasks", "--", "-m"]
      ["-m", "-I", "x", "--tasks", "--", "-m"] :=
    .parted ['m'] [] _ (by simpa using ⟨dryRun, hm, rfl, rfl⟩)
      (by decide : 'I' ≠ '-') List.not_mem_nil
  have hlong : Respells (buildSchema .standard) ["-m", "-I", "x", "--tasks", "--", "-m"]
      ["-m", "--init-script=x", "--tasks", "--", "-m"] :=
    .exchanged ["-m"] _ hI (.letterApart rfl rfl (by decide))
      (.longEquals (l := "init-script") "x" rfl rfl) (by decide)
  have hletter : Respells (buildSchema .standard)
      ["-m", "--init-script=x", "--tasks", "--", "-m"]
      ["-m", "--init-script=x", "-t", "--", "-m"] :=
    .exchanged ["-m", "--init-script=x"] _ htasks (.long (l := "tasks") rfl rfl)
      (.letter rfl rfl) (by decide)
  have hrespelled : Respelled (buildSchema .standard) ["-mI", "x", "--tasks", "--", "-m"]
      ["-m", "--init-script=x", "-t", "--", "-m"] :=
    .trans _ _ _ (.rel _ _ hparted) (.trans _ _ _ (.rel _ _ hlong) (.rel _ _ hletter))
  exact ⟨h, hrespelled, (parse_respelled h).2 _ _ rfl hrespelled⟩

end LaunchConfig
