import LaunchConfig.Proofs.Arguments.Spelling

/-!
# Reading follows the grammar

`Scans g m as items` says that in mode `m` the arguments `as` are read to their
end and give the items, an option that waits for its value in vain included. What is
read this way is what the grammar splits the arguments into.

Results:

* `gives_of_splits`: arguments that can be split are read as their occurrences;
* `splits_of_scans`: arguments that are read, with all text UTF-8, can be split;
* `Splits.unique`: there is at most one way to split a list of arguments.
-/

namespace LaunchConfig

namespace Grammar

variable {g : Grammar}

/-- In mode `m` the arguments are read to their end as the items. -/
def Scans (g : Grammar) (m : Mode) (as : List RawText) (items : List Item) : Prop :=
  ∃ items' m', g.scan m as = (items', .ok m') ∧ items = m'.complete items'

theorem step_awaiting {a : RawText} (o : OptionSpec) (hplain : Token.ofRaw a ≠ .plain)
    (hescape : Token.ofRaw a ≠ .escape) :
    g.step (.awaiting o) a = (.bare o :: (g.readToken a).1, (g.readToken a).2) := by
  cases htok : Token.ofRaw a with
  | plain => exact absurd htok hplain
  | escape => exact absurd htok hescape
  | long name v? => simp only [step, htok]
  | cluster letters => simp only [step, htok]

theorem scans_nil_iff {m : Mode} {items : List Item} :
    g.Scans m [] items ↔ items = m.leftover := by
  constructor
  · rintro ⟨_, _, h, rfl⟩
    cases h
    rfl
  · rintro rfl
    exact ⟨[], m, rfl, rfl⟩

theorem scans_cons_iff {m : Mode} {a : RawText} {as : List RawText} {items : List Item} :
    g.Scans m (a :: as) items ↔
      ∃ i₁ m₁ i₂, g.step m a = (i₁, .ok m₁) ∧ g.Scans m₁ as i₂ ∧ items = i₁ ++ i₂ := by
  constructor
  · rintro ⟨items', m', h, rfl⟩
    rcases hs : g.step m a with ⟨i₁, halt | m₁⟩
    · rw [scan_cons_error hs] at h
      cases (Prod.mk.inj h).2
    · rw [scan_cons_ok hs] at h
      obtain ⟨rfl, hnext⟩ := Prod.mk.inj h
      exact ⟨i₁, m₁, m'.complete (g.scan m₁ as).1, rfl, ⟨_, m', Prod.ext rfl hnext, rfl⟩,
        List.append_assoc ..⟩
  · rintro ⟨i₁, m₁, _, hs, ⟨i₂, m', h, rfl⟩, rfl⟩
    refine ⟨i₁ ++ i₂, m', ?_, (List.append_assoc ..).symm⟩
    rw [scan_cons_ok hs, h]

theorem Scans.unique {m : Mode} {as : List RawText} {items items' : List Item}
    (h : g.Scans m as items) (h' : g.Scans m as items') : items = items' := by
  obtain ⟨i, m₁, hscan, rfl⟩ := h
  obtain ⟨i', m₁', hscan', rfl⟩ := h'
  cases hscan.symm.trans hscan'
  rfl

/-- After the end of the options an option that waits occurs first, and then every
    argument is positional. -/
theorem scans_trailing_iff {o? : Option OptionSpec} {as : List RawText} {items : List Item} :
    g.Scans (.trailing o?) as items ↔
      items = (Mode.trailing o?).leftover ++ as.map .positional := by
  cases as with
  | nil =>
    rw [scans_nil_iff, List.map_nil, List.append_nil]
  | cons a as =>
    have htrailing : g.Scans (.trailing none) as (as.map .positional) :=
      ⟨_, _, scan_trailing g as, (List.append_nil _).symm⟩
    rw [scans_cons_iff]
    constructor
    · rintro ⟨i₁, m₁, i₂, hs, hscan, rfl⟩
      cases hs
      rw [hscan.unique htrailing, List.append_assoc]
      rfl
    · rintro rfl
      exact ⟨_, _, _, rfl, htrailing, by rw [List.append_assoc]; rfl⟩

theorem Scans.awaiting {as : List RawText} {items : List Item} (h : g.Scans .ready as items)
    (o : OptionSpec) (hhead : ∀ a ∈ as.head?, Token.ofRaw a ≠ .plain) :
    g.Scans (.awaiting o) as (.bare o :: items) := by
  cases as with
  | nil =>
    obtain rfl := scans_nil_iff.1 h
    exact scans_nil_iff.2 rfl
  | cons a as =>
    obtain ⟨i₁, m₁, i₂, hs, hscan, rfl⟩ := scans_cons_iff.1 h
    have hread : g.readToken a = (i₁, .ok m₁) := hs
    by_cases hescape : Token.ofRaw a = .escape
    · -- the option is remembered, and occurs before the next argument
      simp only [readToken, hescape] at hread
      cases hread
      refine scans_cons_iff.2
        ⟨[], .trailing (some o), .bare o :: i₂, by simp [step, hescape], ?_, rfl⟩
      rw [scans_trailing_iff.1 hscan, scans_trailing_iff]
      rfl
    · refine scans_cons_iff.2 ⟨.bare o :: i₁, m₁, i₂, ?_, hscan, rfl⟩
      rw [step_awaiting o (hhead a rfl) hescape, hread]

/-- In mode `m` the arguments, all of them UTF-8, are read to their end as the occurrences. -/
def Gives (g : Grammar) (m : Mode) (as : List RawText) (us : List Occurrence) : Prop :=
  ∃ items, g.Scans m as items ∧ items.map Item.occurrence = us ∧ items.all Item.readable = true

theorem Gives.cons {m m₁ : Mode} {a : RawText} {as : List RawText} {i₁ : List Item}
    {us : List Occurrence} (h : g.Gives m₁ as us) (hstep : g.step m a = (i₁, .ok m₁))
    (hall₁ : i₁.all Item.readable = true) : g.Gives m (a :: as) (i₁.map Item.occurrence ++ us) := by
  obtain ⟨items, hscan, rfl, hall⟩ := h
  refine ⟨i₁ ++ items, scans_cons_iff.2 ⟨_, _, _, hstep, hscan, rfl⟩, List.map_append, ?_⟩
  rw [List.all_append, hall₁, hall]
  rfl

theorem Gives.awaiting {as : List RawText} {us : List Occurrence} (h : g.Gives .ready as us)
    (o : OptionSpec) (hhead : ∀ a ∈ as.head?, Token.ofRaw a ≠ .plain) :
    g.Gives (.awaiting o) as (.bare o :: us) := by
  obtain ⟨items, hscan, rfl, hall⟩ := h
  exact ⟨.bare o :: items, hscan.awaiting o hhead, rfl, hall⟩

end Grammar

/-! ## Splittings are read -/

open Grammar in
/-- Arguments that can be split are read as their occurrences. -/
theorem gives_of_splits {g : Grammar} (hs : g.schema.Distinct) (ht : g.schema.Typable)
    {ts : List String} {us : List Occurrence} (h : Splits g.schema ts us) :
    g.Gives .ready (ts.map .ofString) us := by
  induction h with
  | nil => exact ⟨[], scans_nil_iff.2 rfl, rfl, rfl⟩
  | @positional t ts us hplain _ ih =>
    have hread : g.step .ready (.ofString t) = ([.positional (.ofString t)], .ok .ready) := by
      simp only [step, readToken, Token.ofRaw_eq_plain_iff.2 hplain]
    simpa [Item.occurrence] using ih.cons hread rfl
  | @named t ts us vs hsp _ ih =>
    obtain ⟨i₁, hread, rfl, hall₁⟩ := readToken_of_spells hs ht hsp
    exact ih.cons hread hall₁
  | @detached t v ts us vs o hsp hplain _ ih =>
    obtain ⟨i₁, hread, rfl, hall₁⟩ := readToken_of_spells hs ht hsp
    have hvalue : g.step (.awaiting o) (.ofString v)
        = ([.detached o (.ofString v)], .ok .ready) := by
      simp only [step, Token.ofRaw_eq_plain_iff.2 hplain]
    have hgives : g.Gives (.awaiting o) (.ofString v :: ts.map .ofString) (.valued o v :: vs) := by
      simpa [Item.occurrence] using ih.cons hvalue rfl
    exact hgives.cons hread hall₁
  | @bare t ts us vs o hsp hhead _ ih =>
    obtain ⟨i₁, hread, rfl, hall₁⟩ := readToken_of_spells hs ht hsp
    have hhead : ∀ a ∈ (ts.map RawText.ofString).head?, Token.ofRaw a ≠ .plain := by
      intro a ha hplain
      rw [List.head?_map] at ha
      obtain ⟨v, hv, rfl⟩ := Option.map_eq_some_iff.1 ha
      exact hhead v hv (Token.ofRaw_eq_plain_iff.1 hplain)
    exact (ih.awaiting o hhead).cons hread hall₁
  | escape ts =>
    refine ⟨(ts.map .ofString).map .positional, ?_, ?_, ?_⟩
    · exact scans_cons_iff.2 ⟨[], .trailing none, _, rfl, scans_trailing_iff.2 rfl, rfl⟩
    · simp [Item.occurrence, Function.comp_def]
    · simp [Item.readable, Item.text?]

/-! ## What is read is a splitting -/

/-- How arguments are split that are read in a mode. -/
def SplitsFrom (s : Schema) : Mode → List String → List Occurrence → Prop
  | .ready, ts, us => Splits s ts us
  | .awaiting o, ts, us =>
    (∃ v ts' us', ts = v :: ts' ∧ Token.IsPlain (.ofString v) ∧ us = .valued o v :: us' ∧
        Splits s ts' us') ∨
      (∀ v ∈ ts.head?, ¬ Token.IsPlain (.ofString v)) ∧ ∃ us', us = .bare o :: us' ∧ Splits s ts us'
  | .trailing o?, ts, us => us = o?.toList.map .bare ++ ts.map .positional

variable {s : Schema}

theorem Spells.splits {t : String} {ts : List String} {us vs : List Occurrence}
    {o? : Option OptionSpec} (h : Spells s t us o?) (hts : SplitsFrom s (.opened o?) ts vs) :
    Splits s (t :: ts) (us ++ vs) := by
  cases o? with
  | none => exact .named h hts
  | some o =>
    rcases hts with ⟨v, ts', us', rfl, hplain, rfl, hts'⟩ | ⟨hhead, us', rfl, hts'⟩
    · exact .detached h hplain hts'
    · exact .bare h hhead hts'

section Reading

variable {g : Grammar} (hs : g.schema.Distinct) (ht : g.schema.Typable)

include hs ht

/-- An argument that is read goes before a splitting of the arguments after it. -/
theorem splits_of_readToken {a : RawText} {items : List Item} {m : Mode} {ts : List String}
    {us : List Occurrence} (hp : a.Proper) (h : g.readToken a = (items, .ok m))
    (hall : items.all Item.readable = true) (hts : SplitsFrom g.schema m ts us) :
    a.readable = true ∧ Splits g.schema (a.text :: ts) (items.map Item.occurrence ++ us) := by
  obtain ⟨hr, hkind⟩ := Grammar.spells_of_readToken hs ht hp h hall
  refine ⟨hr, ?_⟩
  rcases hkind with ⟨htok, rfl, rfl⟩ | ⟨htok, rfl, rfl⟩ | ⟨o?, hsp, rfl⟩
  · obtain rfl : us = ts.map .positional := hts
    rw [Token.ofRaw_eq_escape_iff.1 htok]
    exact .escape ts
  · have hplain := Token.ofRaw_eq_plain_iff.1 htok
    rw [← RawText.ofString_text hr] at hplain
    exact .positional hplain hts
  · exact hsp.splits hts

theorem splits_of_step_awaiting {a : RawText} {o : OptionSpec} {items : List Item} {m : Mode}
    {ts : List String} {us : List Occurrence} (hp : a.Proper)
    (h : g.step (.awaiting o) a = (items, .ok m)) (hall : items.all Item.readable = true)
    (hts : SplitsFrom g.schema m ts us) :
    a.readable = true ∧
      SplitsFrom g.schema (.awaiting o) (a.text :: ts) (items.map Item.occurrence ++ us) := by
  by_cases hplain : Token.ofRaw a = .plain
  · simp only [Grammar.step, hplain] at h
    cases h
    have hr : a.readable = true := by simpa [Item.readable, Item.text?] using hall
    have hplain := Token.ofRaw_eq_plain_iff.1 hplain
    rw [← RawText.ofString_text hr] at hplain
    exact ⟨hr, .inl ⟨a.text, ts, us, rfl, hplain, rfl, hts⟩⟩
  by_cases hescape : Token.ofRaw a = .escape
  · simp only [Grammar.step, hescape] at h
    cases h
    obtain rfl := Token.ofRaw_eq_escape_iff.1 hescape
    refine ⟨rfl, .inr ⟨?_, ts.map .positional, hts, .escape ts⟩⟩
    rintro v ⟨⟩
    decide
  · rw [Grammar.step_awaiting o hplain hescape] at h
    obtain ⟨rfl, hnext⟩ := Prod.mk.inj h
    rw [List.all_cons, Bool.and_eq_true] at hall
    obtain ⟨hr, hsplit⟩ := splits_of_readToken hs ht hp (Prod.ext rfl hnext) hall.2 hts
    refine ⟨hr, .inr ⟨?_, _, rfl, hsplit⟩⟩
    rintro v ⟨⟩ hv
    rw [RawText.ofString_text hr] at hv
    exact hplain (Token.ofRaw_eq_plain_iff.2 hv)

/-- Arguments that are read to their end, with all text UTF-8, can be split. -/
theorem splitsFrom_of_scans {m : Mode} {as : List RawText} {items : List Item}
    (hp : ∀ a ∈ as, a.Proper) (h : g.Scans m as items) (hall : items.all Item.readable = true) :
    ∃ ts : List String, as = ts.map .ofString ∧
      SplitsFrom g.schema m ts (items.map Item.occurrence) := by
  induction as generalizing m items with
  | nil =>
    obtain rfl := Grammar.scans_nil_iff.1 h
    refine ⟨[], rfl, ?_⟩
    cases m with
    | ready => exact .nil
    | awaiting o => exact .inr ⟨by simp, [], rfl, .nil⟩
    | trailing o? => cases o? <;> rfl
  | cons a as ih =>
    rw [List.forall_mem_cons] at hp
    obtain ⟨i₁, m₁, i₂, hstep, hscan, rfl⟩ := Grammar.scans_cons_iff.1 h
    rw [List.all_append, Bool.and_eq_true] at hall
    obtain ⟨ts, rfl, hts⟩ := ih hp.2 hscan hall.2
    rw [List.map_append]
    cases m with
    | ready =>
      obtain ⟨hr, hsplit⟩ := splits_of_readToken hs ht hp.1 hstep hall.1 hts
      exact ⟨a.text :: ts, by rw [List.map_cons, RawText.ofString_text hr], hsplit⟩
    | awaiting o =>
      obtain ⟨hr, hsplit⟩ := splits_of_step_awaiting hs ht hp.1 hstep hall.1 hts
      exact ⟨a.text :: ts, by rw [List.map_cons, RawText.ofString_text hr], hsplit⟩
    | trailing o? =>
      cases hstep
      rw [List.all_append, Bool.and_eq_true] at hall
      have hr : a.readable = true := by simpa [Item.readable, Item.text?] using hall.1.2
      refine ⟨a.text :: ts, by rw [List.map_cons, RawText.ofString_text hr], ?_⟩
      obtain hts : i₂.map Item.occurrence = ts.map .positional := hts
      rw [hts]
      cases o? <;> rfl

theorem splits_of_scans {as : List RawText} {items : List Item} (hp : ∀ a ∈ as, a.Proper)
    (h : g.Scans .ready as items) (hall : items.all Item.readable = true) :
    ∃ ts : List String, as = ts.map .ofString ∧
      Splits g.schema ts (items.map Item.occurrence) :=
  splitsFrom_of_scans hs ht hp h hall

end Reading

/-- There is at most one way to split a list of arguments. -/
theorem Splits.unique (hs : s.Distinct) (ht : s.Typable) {ts : List String}
    {us vs : List Occurrence} (h : Splits s ts us) (h' : Splits s ts vs) : us = vs := by
  obtain ⟨i, hscan, rfl, -⟩ := gives_of_splits (g := ⟨s, false⟩) hs ht h
  obtain ⟨i', hscan', rfl, -⟩ := gives_of_splits (g := ⟨s, false⟩) hs ht h'
  rw [hscan.unique hscan']

end LaunchConfig
