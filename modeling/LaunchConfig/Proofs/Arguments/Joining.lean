import LaunchConfig.Proofs.Arguments.LeftOut
import LaunchConfig.Proofs.Arguments.Writing

/-!
# Arguments that follow other arguments

Arguments that are read to their end leave nothing behind but an option without its value,
if they end in one. So two lists of arguments, read one after the other, say what each says
by itself, unless the first ends in such an option and the second begins with an argument
that can be its value. A task that an option asks for is entered once all the same.

Results:

* `Splits.append`, `Splits.append_opened`: how arguments split that follow others;
* `Splits.exists_of_append`: arguments that follow others and are split with them;
* `Occurrence.extrasAfter_eq_sourced`: which extra arguments are left of those that come
  second;
* `Schema.parse_append_iff`: when reading two lists in one is reading each of them.
-/

namespace LaunchConfig

variable {s : Schema}

/-! ## Splitting -/

/-- What an argument says by itself it gives: that an option stays without its value is seen
    only later. -/
theorem Cluster.exists_gives {cs : List Char} {us : List Occurrence} {o? : Option OptionSpec}
    (h : Cluster s cs us o?) : ∀ u ∈ us, ∃ o, u.gives o = true := by
  induction h with
  | nil => simp
  | flag _ _ _ _ ih => simpa [Occurrence.gives] using ih
  | value _ _ _ _ => simp [Occurrence.gives]
  | opened _ _ _ => simp

theorem Spells.exists_gives {t : String} {us : List Occurrence} {o? : Option OptionSpec}
    (h : Spells s t us o?) : ∀ u ∈ us, ∃ o, u.gives o = true := by
  cases h with
  | longFlag _ _ _ => simp [Occurrence.gives]
  | longValue _ _ _ _ => simp [Occurrence.gives]
  | longOpened _ _ _ => simp
  | letters _ hcl => exact hcl.exists_gives

theorem Spells.bare_notMem {t : String} {us : List Occurrence} {o? : Option OptionSpec}
    (h : Spells s t us o?) (o : OptionSpec) : .bare o ∉ us := by
  intro hmem
  obtain ⟨o', ho'⟩ := h.exists_gives _ hmem
  cases ho'

theorem Spells.ne_nil {t : String} {us : List Occurrence} (h : Spells s t us none) : us ≠ [] := by
  rintro rfl
  cases h with
  | letters hne hcl =>
    cases hcl
    exact absurd rfl hne

theorem Splits.eq_nil {ts : List String} (h : Splits s ts []) (hescape : "--" ∉ ts) : ts = [] := by
  generalize hus : ([] : List Occurrence) = us at h
  cases h with
  | nil => rfl
  | positional _ _ => cases hus
  | detached _ _ _ => simp at hus
  | bare _ _ _ => simp at hus
  | escape ts => simp at hescape
  | named hsp _ => exact absurd (List.nil_eq_append_iff.1 hus).1 hsp.ne_nil

/-- Arguments that follow others are split as they are by themselves. -/
theorem Splits.append {a b : List String} {us vs : List Occurrence} (h : Splits s a us)
    (hescape : "--" ∉ a) (h' : Splits s b vs)
    (hopen : ∀ o, us.getLast? = some (.bare o) →
      ∀ t ∈ b.head?, ¬ Token.IsPlain (.ofString t)) :
    Splits s (a ++ b) (us ++ vs) := by
  induction h with
  | nil => exact h'
  | @positional t ts us hplain _ ih =>
    rw [List.mem_cons, not_or] at hescape
    refine .positional hplain (ih hescape.2 fun o ho => hopen o ?_)
    rw [List.getLast?_cons, ho, Option.getD_some]
  | @named t ts us ws hsp _ ih =>
    rw [List.mem_cons, not_or] at hescape
    rw [List.append_assoc]
    refine .named hsp (ih hescape.2 fun o ho => hopen o ?_)
    rw [List.getLast?_append, ho, Option.some_or]
  | @detached t v ts us ws o' hsp hplain _ ih =>
    rw [List.mem_cons, List.mem_cons, not_or, not_or] at hescape
    rw [List.append_assoc]
    refine .detached hsp hplain (ih hescape.2.2 fun o ho => hopen o ?_)
    rw [List.getLast?_append, List.getLast?_cons, ho, Option.getD_some, Option.some_or]
  | @bare t ts us ws o' hsp hhead hts ih =>
    rw [List.mem_cons, not_or] at hescape
    rw [List.append_assoc]
    refine .bare hsp ?_ (ih hescape.2 fun o ho => hopen o ?_)
    · cases ts with
      | cons t' ts => exact hhead
      | nil =>
        cases hts
        exact hopen o' List.getLast?_concat
    · rw [List.getLast?_append, List.getLast?_cons, ho, Option.getD_some, Option.some_or]
  | escape ts => simp at hescape

/-- Arguments are split where one stands that is no value. -/
theorem Splits.exists_of_append {ts rest : List String} {us : List Occurrence}
    (h : Splits s (ts ++ rest) us) (hescape : "--" ∉ ts)
    (hrest : ∀ t ∈ rest.head?, ¬ Token.IsPlain (.ofString t)) :
    ∃ vs ws, us = vs ++ ws ∧ Splits s ts vs ∧ Splits s rest ws := by
  generalize hall : ts ++ rest = all at h
  induction h generalizing ts with
  | nil =>
    obtain ⟨rfl, rfl⟩ := List.append_eq_nil_iff.1 hall
    exact ⟨[], [], rfl, .nil, .nil⟩
  | @positional t ts' us hplain hts' ih =>
    cases ts with
    | nil =>
      obtain rfl : rest = t :: ts' := hall
      exact absurd hplain (hrest t rfl)
    | cons t₁ ts =>
      obtain ⟨rfl, rfl⟩ := List.cons.inj hall
      rw [List.mem_cons, not_or] at hescape
      obtain ⟨vs, ws, rfl, hvs, hws⟩ := ih hescape.2 rfl
      exact ⟨_, ws, rfl, .positional hplain hvs, hws⟩
  | @named t ts' us vs hsp hts' ih =>
    cases ts with
    | nil =>
      obtain rfl : rest = t :: ts' := hall
      exact ⟨[], _, rfl, .nil, .named hsp hts'⟩
    | cons t₁ ts =>
      obtain ⟨rfl, rfl⟩ := List.cons.inj hall
      rw [List.mem_cons, not_or] at hescape
      obtain ⟨vs, ws, rfl, hvs, hws⟩ := ih hescape.2 rfl
      exact ⟨_, ws, (List.append_assoc ..).symm, .named hsp hvs, hws⟩
  | @detached t v ts' us vs o hsp hplain hts' ih =>
    cases ts with
    | nil =>
      obtain rfl : rest = t :: v :: ts' := hall
      exact ⟨[], _, rfl, .nil, .detached hsp hplain hts'⟩
    | cons t₁ ts =>
      obtain ⟨rfl, htail⟩ := List.cons.inj hall
      cases ts with
      | nil =>
        obtain rfl : rest = v :: ts' := htail
        exact absurd hplain (hrest v rfl)
      | cons v₁ ts =>
        obtain ⟨rfl, rfl⟩ := List.cons.inj htail
        rw [List.mem_cons, List.mem_cons, not_or, not_or] at hescape
        obtain ⟨vs, ws, rfl, hvs, hws⟩ := ih hescape.2.2 rfl
        refine ⟨_, ws, ?_, .detached hsp hplain hvs, hws⟩
        rw [List.append_assoc, List.cons_append]
  | @bare t ts' us vs o hsp hhead hts' ih =>
    cases ts with
    | nil =>
      obtain rfl : rest = t :: ts' := hall
      exact ⟨[], _, rfl, .nil, .bare hsp hhead hts'⟩
    | cons t₁ ts =>
      obtain ⟨rfl, rfl⟩ := List.cons.inj hall
      rw [List.mem_cons, not_or] at hescape
      obtain ⟨vs, ws, rfl, hvs, hws⟩ := ih hescape.2 rfl
      have hhead' : ∀ v ∈ ts.head?, ¬ Token.IsPlain (.ofString v) := by
        intro v hv
        exact hhead v (List.head?_append.trans (by rw [hv, Option.some_or]))
      refine ⟨_, ws, ?_, .bare hsp hhead' hvs, hws⟩
      rw [List.append_assoc, List.cons_append]
  | escape ts' =>
    cases ts with
    | nil =>
      obtain rfl : rest = "--" :: ts' := hall
      exact ⟨[], _, rfl, .nil, .escape ts'⟩
    | cons t₁ ts =>
      obtain ⟨rfl, -⟩ := List.cons.inj hall
      simp at hescape

/-- The last option that others leave open takes the argument that follows as its value. -/
theorem Splits.append_opened {a b : List String} {us vs : List Occurrence} {o : OptionSpec}
    {v : String} (h : Splits s a us) (hescape : "--" ∉ a) (hlast : us.getLast? = some (.bare o))
    (hv : Token.IsPlain (.ofString v)) (h' : Splits s b vs) :
    Splits s (a ++ v :: b) (us.dropLast ++ .valued o v :: vs) := by
  induction h with
  | nil => cases hlast
  | @positional t ts us hplain _ ih =>
    have hne : us ≠ [] := by
      rintro rfl
      cases hlast
    rw [List.mem_cons, not_or] at hescape
    rw [List.getLast?_cons_of_ne_nil hne] at hlast
    rw [List.dropLast_cons_of_ne_nil hne]
    exact .positional hplain (ih hescape.2 hlast)
  | @named t ts us ws hsp _ ih =>
    have hne : ws ≠ [] := by
      rintro rfl
      rw [List.append_nil] at hlast
      exact hsp.bare_notMem o (List.mem_of_getLast? hlast)
    rw [List.mem_cons, not_or] at hescape
    rw [List.getLast?_append_of_ne_nil us hne] at hlast
    rw [List.dropLast_append_of_ne_nil hne, List.append_assoc]
    exact .named hsp (ih hescape.2 hlast)
  | @detached t v' ts us ws o' hsp hplain _ ih =>
    have hne : ws ≠ [] := by
      rintro rfl
      rw [List.getLast?_concat] at hlast
      cases hlast
    rw [List.mem_cons, List.mem_cons, not_or, not_or] at hescape
    rw [List.getLast?_append_of_ne_nil us (List.cons_ne_nil _ ws),
      List.getLast?_cons_of_ne_nil hne] at hlast
    rw [List.dropLast_append_of_ne_nil (List.cons_ne_nil _ ws), List.dropLast_cons_of_ne_nil hne,
      List.append_assoc]
    exact .detached hsp hplain (ih hescape.2.2 hlast)
  | @bare t ts us ws o' hsp hhead hts ih =>
    rw [List.mem_cons, not_or] at hescape
    cases ws with
    | nil =>
      -- the option that is left open is that of the last argument
      rw [List.getLast?_concat] at hlast
      obtain rfl : o' = o := by
        cases hlast
        rfl
      obtain rfl : ts = [] := hts.eq_nil hescape.2
      rw [List.dropLast_concat]
      exact .detached hsp hv h'
    | cons w ws =>
      have hne : w :: ws ≠ [] := List.cons_ne_nil w ws
      have hhead' : ∀ t ∈ (ts ++ v :: b).head?, ¬ Token.IsPlain (.ofString t) := by
        cases ts with
        | nil => cases hts
        | cons t' ts => exact hhead
      rw [List.getLast?_append_of_ne_nil us (List.cons_ne_nil _ (w :: ws)),
        List.getLast?_cons_of_ne_nil hne] at hlast
      rw [List.dropLast_append_of_ne_nil (List.cons_ne_nil _ (w :: ws)),
        List.dropLast_cons_of_ne_nil hne, List.append_assoc]
      exact .bare hsp hhead' (ih hescape.2 hlast)
  | escape ts => simp at hescape

theorem Spells.not_isPlain {t : String} {us : List Occurrence} {o? : Option OptionSpec}
    (h : Spells s t us o?) : ¬ Token.IsPlain (.ofString t) := by
  cases h with
  | longFlag _ _ _ => simp [Token.IsPlain, RawText.ofString]
  | longValue _ _ _ _ => simp [Token.IsPlain, RawText.ofString]
  | longOpened _ _ _ => simp [Token.IsPlain, RawText.ofString]
  | letters hne _ => simpa [Token.IsPlain, RawText.ofString] using hne

theorem Splits.of_isPlain {t : String} {ts : List String} {us : List Occurrence}
    (h : Splits s (t :: ts) us) (ht : Token.IsPlain (.ofString t)) :
    ∃ us', us = .positional t :: us' ∧ Splits s ts us' := by
  cases h with
  | positional _ hts => exact ⟨_, rfl, hts⟩
  | named hsp _ => exact absurd ht hsp.not_isPlain
  | detached hsp _ _ => exact absurd ht hsp.not_isPlain
  | bare hsp _ _ => exact absurd ht hsp.not_isPlain
  | escape ts => exact absurd ht (by decide)

/-! ## Extra arguments -/

namespace Occurrence

variable {us vs : List Occurrence} {o : OptionSpec} {p q r : CommandLine}

/-- The extra arguments of occurrences that follow `before`, each with the option that asks
    for it as its task. A positional argument is asked for by none. -/
def sourcedAfter (before : List Occurrence) :
    List Occurrence → List (Option OptionSpec × String)
  | [] => []
  | u :: us => (u.extra before).map (u.option?, ·) ++ sourcedAfter (before ++ [u]) us

/-- The extra arguments, each with the option that asks for it. -/
def sourced (us : List Occurrence) : List (Option OptionSpec × String) := sourcedAfter [] us

theorem map_snd_sourcedAfter (before us : List Occurrence) :
    (sourcedAfter before us).map Prod.snd = extrasAfter before us := by
  induction us generalizing before with
  | nil => rfl
  | cons u us ih =>
    rw [sourcedAfter, extrasAfter, List.map_append, ih, List.map_map]
    exact congrArg (· ++ _) (List.map_id _)

theorem map_snd_sourced (us : List Occurrence) : (sourced us).map Prod.snd = extras us :=
  map_snd_sourcedAfter [] us

theorem exists_mem_of_mem_sourcedAfter {before us : List Occurrence}
    {e : Option OptionSpec × String} (h : e ∈ sourcedAfter before us) :
    ∃ u ∈ us, e.1 = u.option? := by
  induction us generalizing before with
  | nil => cases h
  | cons u us ih =>
    rcases List.mem_append.1 h with h | h
    · obtain ⟨t, -, rfl⟩ := List.mem_map.1 h
      exact ⟨u, List.mem_cons_self, rfl⟩
    · obtain ⟨w, hw, he⟩ := ih h
      exact ⟨w, List.mem_cons_of_mem u hw, he⟩

/-- Of the tasks that an occurrence asks for, those are dropped whose option has been given
    before. -/
theorem extra_append (first before : List Occurrence) (u : Occurrence) :
    u.extra (first ++ before)
      = (((u.extra before).map (u.option?, ·)).filter
          fun e => e.1.all fun o => !first.any (gives o)).map Prod.snd := by
  cases u with
  | positional t => rfl
  | bare o => rfl
  | flag o | valued o v =>
    simp only [extra, option?, List.any_append]
    cases hfirst : first.any (gives o) <;> cases hbefore : before.any (gives o) <;>
      cases o.task? <;> simp [hfirst]

theorem extrasAfter_eq_sourced (first before us : List Occurrence) :
    extrasAfter (first ++ before) us
      = ((sourcedAfter before us).filter
          fun e => e.1.all fun o => !first.any (gives o)).map Prod.snd := by
  induction us generalizing before with
  | nil => rfl
  | cons u us ih =>
    rw [extrasAfter, sourcedAfter, List.filter_append, List.map_append, ← extra_append,
      List.append_assoc, ih]

/-! ## What both come to -/

/-- An option is present exactly if it was given, as none goes without a value altogether. -/
theorem Reads.has_eq_any_gives (hs : s.Distinct) (hus : ∀ u ∈ us, u.Of s) (hadm : Admissible us)
    (hp : Reads us p) (ho : o ∈ s.options) : p.has o.id = us.any (gives o) := by
  cases hv : o.takesValue with
  | false => exact hp.has_flag hs hus ho hv
  | true =>
    rw [Bool.eq_iff_iff, hp.has_iff, List.any_eq_true]
    constructor
    · rintro ⟨u, hu, o', ho', hid⟩
      obtain rfl := eq_of_id hs hus ho hu ho' hid
      by_cases hbare : u = .bare o'
      · subst hbare
        obtain ⟨v, hmem⟩ := hadm.supplied _ hu
        exact ⟨_, hmem, gives_iff.2 ⟨rfl, nofun⟩⟩
      · exact ⟨u, hu, gives_iff.2 ⟨ho', hbare⟩⟩
    · rintro ⟨u, hu, hg⟩
      exact ⟨u, hu, o, (gives_iff.1 hg).1, rfl⟩

/-- No option of a single value occurs in both, so none occurs twice. -/
theorem Admissible.append (hus : ∀ u ∈ us, u.Of s) (hp : Reads us p) (hq : Reads vs q)
    (hsingle : ∀ o ∈ s.options, o.arity = .single → ¬ (p.has o.id = true ∧ q.has o.id = true))
    (h : Admissible us) (h' : Admissible vs) : Admissible (us ++ vs) where
  once o ho := by
    have habsent {ws : List Occurrence} (hnone : ∀ w ∈ ws, w.option? ≠ some o) :
        ws.countP (·.option? = some o) = 0 := by
      simpa [List.countP_eq_zero] using hnone
    have hus_once := h.once o ho
    have hvs_once := h'.once o ho
    rw [List.countP_append]
    by_cases hu : ∃ u ∈ us, u.option? = some o
    · have hnone : ∀ v ∈ vs, v.option? ≠ some o := by
        intro v hv hvo
        obtain ⟨u, hu, huo⟩ := hu
        exact hsingle o ((hus u hu).mem_options huo) ho
          ⟨(hp.has_iff _).2 ⟨u, hu, o, huo, rfl⟩, (hq.has_iff _).2 ⟨v, hv, o, hvo, rfl⟩⟩
      rw [habsent hnone]
      exact hus_once
    · rw [habsent fun u hmem huo => hu ⟨u, hmem, huo⟩, Nat.zero_add]
      exact hvs_once
  supplied o ho := by
    rcases List.mem_append.1 ho with ho | ho
    · obtain ⟨v, hv⟩ := h.supplied o ho
      exact ⟨v, List.mem_append_left vs hv⟩
    · obtain ⟨v, hv⟩ := h'.supplied o ho
      exact ⟨v, List.mem_append_right us hv⟩

/-- The command line has the options of both others, each with the values of the first and
    then those of the second. Its extra arguments are those of the first, and then those that
    `vs` asks for, but for the tasks of options that the first has. -/
structure Joins (p q : CommandLine) (vs : List Occurrence) (r : CommandLine) : Prop where
  has_eq (id : String) : r.has id = (p.has id || q.has id)
  values_eq (id : String) : r.values id = p.values id ++ q.values id
  extra_eq : r.extra = p.extra
    ++ ((sourced vs).filter fun e => e.1.all fun o => !p.has o.id).map Prod.snd

/-- Where an option takes the first argument of the second list as its value, it has a value
    more than in both. -/
theorem not_joins_opened {t : String} (hlast : us.getLast? = some (.bare o)) (hp : Reads us p)
    (hq : Reads (.positional t :: vs) q) (hr : Reads (us.dropLast ++ .valued o t :: vs) r)
    (ws : List Occurrence) : ¬ Joins p q ws r := by
  intro h
  have hmore : r.values o.id
      = us.dropLast.filterMap (valueFor? o.id) ++ t :: vs.filterMap (valueFor? o.id) := by
    rw [hr.values_eq, List.filterMap_append]
    simp [valueFor?]
  have hfirst : p.values o.id = us.dropLast.filterMap (valueFor? o.id) := by
    rw [hp.values_eq, ← List.dropLast_append_getLast? _ hlast, List.filterMap_append,
      List.dropLast_concat]
    simp [valueFor?]
  have hsecond : q.values o.id = vs.filterMap (valueFor? o.id) := hq.values_eq o.id
  have hboth := h.values_eq o.id
  rw [hmore, hfirst, hsecond] at hboth
  simp at hboth

theorem Reads.joins (hs : s.Distinct) (hus : ∀ u ∈ us, u.Of s) (hvs : ∀ v ∈ vs, v.Of s)
    (hadm : Admissible us) (hp : Reads us p) (hq : Reads vs q) (hr : Reads (us ++ vs) r) :
    Joins p q vs r where
  has_eq id := by
    rw [Bool.eq_iff_iff, Bool.or_eq_true, hr.has_iff, hp.has_iff, hq.has_iff]
    simp only [List.mem_append, or_and_right, exists_or]
  values_eq id := by
    rw [hr.values_eq, hp.values_eq, hq.values_eq, List.filterMap_append]
  extra_eq := by
    have hgiven : ∀ e ∈ sourced vs,
        (e.1.all fun o => !us.any (gives o)) = e.1.all fun o => !p.has o.id := by
      intro e he
      obtain ⟨v, hv, hev⟩ := exists_mem_of_mem_sourcedAfter he
      cases ho : v.option? with
      | none => rw [hev, ho, Option.all_none, Option.all_none]
      | some o =>
        rw [hev, ho, Option.all_some, Option.all_some,
          hp.has_eq_any_gives hs hus hadm ((hvs v hv).mem_options ho)]
    have hrest : extrasAfter us vs
        = ((sourced vs).filter fun e => e.1.all fun o => !us.any (gives o)).map Prod.snd := by
      have h := extrasAfter_eq_sourced us [] vs
      rwa [List.append_nil] at h
    rw [hr.extra_eq, hp.extra_eq, extras, extras, extrasAfter_append, List.nil_append, hrest,
      List.filter_congr hgiven]

end Occurrence

/-! ## Reading both in one -/

open Occurrence (Joins Reads Admissible sourced)

namespace Schema

/-- What is accepted is written in strings, which split into admissible occurrences. -/
theorem exists_splits_of_parse (hs : s.Distinct) (ht : s.Typable) {args : List (List UInt8)}
    {p : CommandLine} (h : s.parse (args.map .ofBytes) = .ok p) :
    ∃ (ts : List String) (us : List Occurrence), args = ts.map (·.toUTF8.data.toList) ∧
      Splits s ts us ∧ Admissible us ∧ Reads us p := by
  have hproper : ∀ a ∈ args.map RawText.ofBytes, a.Proper :=
    List.forall_mem_map.2 fun bytes _ => RawText.proper_ofBytes bytes
  rw [parse, Grammar.parse_eq_ok_iff_splits hs ht hproper] at h
  obtain ⟨ts, us, hts, hrest⟩ := h
  exact ⟨ts, us, RawText.map_ofBytes_eq_iff.1 hts, hrest⟩

/-- **When reading two lists in one is reading each of them.** Let two lists of arguments be
    accepted, the first without an argument `--`, and no option of a single value be present in
    both. Read one after the other they come to both command lines joined, exactly unless the
    first list ends in an option left without its value and the second begins with an argument
    that can be its value. Which extra arguments of the second list are tasks of an option, and
    so may be dropped, `sourced` tells. -/
theorem parse_append_iff (hs : s.Registered) (ht : s.Typable) {a b : List (List UInt8)}
    {p q : CommandLine} (ha : s.parse (a.map .ofBytes) = .ok p)
    (hb : s.parse (b.map .ofBytes) = .ok q) (hescape : "--".toUTF8.data.toList ∉ a)
    (hsingle : ∀ o ∈ s.options, o.arity = .single →
      ¬ (p.has o.id = true ∧ q.has o.id = true)) :
    ∃ us vs, s.Divides a us ∧ s.Divides b vs ∧ q.extra = (sourced vs).map Prod.snd ∧
      ((∃ r, s.parse ((a ++ b).map .ofBytes) = .ok r ∧ Joins p q vs r) ↔
        ¬ ∃ o t, us.getLast? = some (.bare o) ∧ b.head? = some t ∧
          Token.IsPlain (.ofBytes t)) := by
  have hd : s.Distinct := hs.distinct
  obtain ⟨ts, us, rfl, hts, hus, hp⟩ := exists_splits_of_parse hd ht ha
  obtain ⟨ts', vs, rfl, hts', hvs, hq⟩ := exists_splits_of_parse hd ht hb
  have hnot : "--" ∉ ts := fun h => hescape (List.mem_map_of_mem h)
  have hstring (t : String) : RawText.ofBytes t.toUTF8.data.toList = .ofString t :=
    RawText.ofBytes_eq_ofString_iff.2 rfl
  have hargs : (ts.map (·.toUTF8.data.toList) ++ ts'.map (·.toUTF8.data.toList)).map .ofBytes
      = (ts ++ ts').map RawText.ofString := RawText.map_ofBytes_eq_iff.2 List.map_append.symm
  refine ⟨us, vs, ⟨ts, rfl, hts, hus.once⟩, ⟨ts', rfl, hts', hvs.once⟩,
    hq.extra_eq.trans (Occurrence.map_snd_sourced vs).symm, ?_⟩
  rw [hargs]
  constructor
  · rintro ⟨r, hr, hjoins⟩ ⟨o, t, hlast, hhead, hplain⟩
    obtain ⟨t', ts'', rfl, rfl⟩ : ∃ t' ts'', ts' = t' :: ts'' ∧ t = t'.toUTF8.data.toList := by
      cases ts' with
      | nil => cases hhead
      | cons t' ts'' => exact ⟨t', ts'', rfl, (Option.some.inj hhead).symm⟩
    rw [hstring] at hplain
    obtain ⟨vs', rfl, hts''⟩ := hts'.of_isPlain hplain
    -- the argument is read as a value, which neither command line has
    have hsplit := hts.append_opened hnot hlast hplain hts''
    obtain ⟨us', hsplit', -, hreads⟩ := (parse_ofString_eq_ok_iff hd ht).1 hr
    obtain rfl := hsplit.unique hd ht hsplit'
    exact Occurrence.not_joins_opened hlast hp hq hreads _ hjoins
  · intro hclosed
    have hsplit : Splits s (ts ++ ts') (us ++ vs) := by
      refine hts.append hnot hts' fun o ho t ht hplain =>
        hclosed ⟨o, t.toUTF8.data.toList, ho, ?_, ?_⟩
      · rw [List.head?_map, ht, Option.map_some]
      · rw [hstring]
        exact hplain
    have hadm : Admissible (us ++ vs) := .append hts.of hp hq hsingle hus hvs
    obtain ⟨r, hr⟩ := Occurrence.exists_reads hd hsplit.of
    exact ⟨r, (parse_ofString_eq_ok_iff hd ht).2 ⟨_, hsplit, hadm, hr⟩,
      Reads.joins hd hts.of hts'.of hus hp hq hr⟩

/-- Two lists that both ask for the tasks, the second with an argument `--`. -/
theorem parse_append_tasks :
    (buildSchema .standard).Registered ∧ (buildSchema .standard).Typable ∧
    (buildSchema .standard).parse ((["-t", "-Ia"].map (·.toUTF8.data.toList)).map .ofBytes)
      = .ok (((∅ : CommandLine).withOption "t" |>.withValues "I" ["a"]).withExtra ["tasks"]) ∧
    (buildSchema .standard).parse
        ((["-t", "build", "-I", "b", "--", "-t"].map (·.toUTF8.data.toList)).map .ofBytes)
      = .ok (((∅ : CommandLine).withOption "t" |>.withValues "I" ["b"]).withExtra
          ["tasks", "build", "-t"]) ∧
    ∃ us vs, (buildSchema .standard).Divides (["-t", "-Ia"].map (·.toUTF8.data.toList)) us ∧
      (buildSchema .standard).Divides
        (["-t", "build", "-I", "b", "--", "-t"].map (·.toUTF8.data.toList)) vs ∧
      (((∅ : CommandLine).withOption "t" |>.withValues "I" ["b"]).withExtra
        ["tasks", "build", "-t"]).extra = (sourced vs).map Prod.snd ∧
      ((∃ r, (buildSchema .standard).parse ((["-t", "-Ia"].map (·.toUTF8.data.toList) ++
            ["-t", "build", "-I", "b", "--", "-t"].map (·.toUTF8.data.toList)).map .ofBytes)
          = .ok r ∧
        Joins (((∅ : CommandLine).withOption "t" |>.withValues "I" ["a"]).withExtra ["tasks"])
          (((∅ : CommandLine).withOption "t" |>.withValues "I" ["b"]).withExtra
            ["tasks", "build", "-t"]) vs r) ↔
        ¬ ∃ o t, us.getLast? = some (.bare o) ∧
          (["-t", "build", "-I", "b", "--", "-t"].map (·.toUTF8.data.toList)).head? = some t ∧
          Token.IsPlain (.ofBytes t)) := by
  have ha : (buildSchema .standard).parse ((["-t", "-Ia"].map (·.toUTF8.data.toList)).map .ofBytes)
      = .ok (((∅ : CommandLine).withOption "t" |>.withValues "I" ["a"]).withExtra ["tasks"]) := by
    decide +kernel
  have hb : (buildSchema .standard).parse
        ((["-t", "build", "-I", "b", "--", "-t"].map (·.toUTF8.data.toList)).map .ofBytes)
      = .ok (((∅ : CommandLine).withOption "t" |>.withValues "I" ["b"]).withExtra
          ["tasks", "build", "-t"]) := by
    decide +kernel
  exact ⟨registered_buildSchema_standard, typable_buildSchema_standard, ha, hb,
    parse_append_iff registered_buildSchema_standard typable_buildSchema_standard ha hb
      (by decide) (by rw [registered_buildSchema]; decide)⟩

/-- The arguments `-I x -I` and the argument `build` are accepted, the second as a task. In
    one list `build` is the value of the last `-I`, and no task. -/
theorem not_joins_initScript :
    (buildSchema .standard).parse ((["-I", "x", "-I"].map (·.toUTF8.data.toList)).map .ofBytes)
      = .ok ((∅ : CommandLine).withValues "I" ["x"]) ∧
    (buildSchema .standard).parse ((["build"].map (·.toUTF8.data.toList)).map .ofBytes)
      = .ok ((∅ : CommandLine).withExtra ["build"]) ∧
    (∀ o ∈ (buildSchema .standard).options, o.arity = .single →
      ¬ (((∅ : CommandLine).withValues "I" ["x"]).has o.id = true ∧
        ((∅ : CommandLine).withExtra ["build"]).has o.id = true)) ∧
    (buildSchema .standard).parse ((["-I", "x", "-I"].map (·.toUTF8.data.toList) ++
        ["build"].map (·.toUTF8.data.toList)).map .ofBytes)
      = .ok ((∅ : CommandLine).withValues "I" ["x", "build"]) ∧
    ∀ vs, ¬ Joins ((∅ : CommandLine).withValues "I" ["x"]) ((∅ : CommandLine).withExtra ["build"])
      vs ((∅ : CommandLine).withValues "I" ["x", "build"]) := by
  refine ⟨by decide +kernel, by decide +kernel, ?_, by decide +kernel, fun vs h => ?_⟩
  · rw [registered_buildSchema]
    decide
  · exact absurd (h.values_eq "I") (by decide)

end Schema
end LaunchConfig
