import LaunchConfig.Proofs.Arguments.Mixing

/-!
# Tasks in place of flags

A flag that asks for a task has it put among the extra arguments where the flag is first given.
The name of the task may be given there instead, and the flag left out from then on: the extra
arguments are the same. But the name is an argument of its own, and so, where a flag is left
out, may be what comes after it. An option that stands right before and is left without its
value takes it then.

Results:

* `Occurrence.extras_named`: the extra arguments with the task in place of the flag;
* `Piece.length_extrasAfter_said`: an argument that an option takes is no extra argument;
* `Schema.exists_parse_named`: what is read with the task in place of the flag.
-/

namespace LaunchConfig

variable {s : Schema} {o : OptionSpec} {t : String}

/-- The command line `q` is `p` without the option. -/
structure CommandLine.Drops (p : CommandLine) (id : String) (q : CommandLine) : Prop where
  has_eq (j : String) : q.has j = (p.has j && j ≠ id)
  values_eq (j : String) : q.values j = p.values j
  extra_eq : q.extra = p.extra

/-! ## Occurrences -/

namespace Occurrence

variable {us before after first second : List Occurrence} {u : Occurrence} {p q : CommandLine}

theorem Of.eq_flag (h : u.Of s) (hf : o.takesValue = false) (hu : u.option? = some o) :
    u = .flag o := by
  cases u with
  | positional t => cases hu
  | flag o' =>
    obtain rfl := Option.some.inj hu
    rfl
  | valued o' v =>
    obtain rfl := Option.some.inj hu
    cases hf.symm.trans h.2
  | bare o' =>
    obtain rfl := Option.some.inj hu
    cases hf.symm.trans h.2

theorem extra_congr (h : ∀ o, u.option? = some o → o.task? ≠ none →
    first.any (gives o) = second.any (gives o)) : u.extra first = u.extra second := by
  cases u with
  | positional t => rfl
  | bare o => rfl
  | flag o | valued o v =>
    cases htask : o.task? with
    | none => simp [extra, htask]
    | some t => rw [extra, h o rfl (by simp [htask]), extra]

theorem extrasAfter_filter_flag (hf : o.takesValue = false) (hus : ∀ u ∈ us, u.Of s)
    (hfirst : first.any (gives o) = true)
    (hsame : ∀ o', o' ≠ o → first.any (gives o') = second.any (gives o')) :
    extrasAfter second (us.filter (· ≠ .flag o)) = extrasAfter first us := by
  induction us generalizing first second with
  | nil => rfl
  | cons u us ih =>
    rw [List.forall_mem_cons] at hus
    have hfirst' : (first ++ [u]).any (gives o) = true := by
      rw [List.any_append, hfirst, Bool.true_or]
    by_cases hu : u = .flag o
    · subst hu
      have hnone : (flag o).extra first = [] := if_pos hfirst
      rw [List.filter_cons_of_neg (by simp), extrasAfter, hnone, List.nil_append]
      refine ih hus.2 hfirst' fun o' ho' => ?_
      rw [List.any_append, ← hsame o' ho']
      simp [gives, ho'.symm]
    · have hextra : u.extra second = u.extra first := by
        refine extra_congr fun o' huo _ => (hsame o' ?_).symm
        rintro rfl
        exact hu (hus.1.eq_flag hf huo)
      rw [List.filter_cons_of_pos (by simpa using hu), extrasAfter, extrasAfter, hextra]
      refine congrArg (u.extra first ++ ·) (ih hus.2 hfirst' fun o' ho' => ?_)
      rw [List.any_append, List.any_append, hsame o' ho']

/-- The task is an extra argument where the flag is first given. -/
theorem extras_named (hf : o.takesValue = false) (htask : o.task? = some t)
    (hus : ∀ u ∈ before ++ .flag o :: after, u.Of s) (hbefore : .flag o ∉ before) :
    extras (before ++ .positional t :: after.filter (· ≠ .flag o))
      = extras (before ++ .flag o :: after) := by
  rw [List.forall_mem_append, List.forall_mem_cons] at hus
  have hnew : before.any (gives o) = false := by
    refine List.any_eq_false.2 fun u hu hg => hbefore ?_
    rwa [← (hus.1 u hu).eq_flag hf (gives_iff.1 hg).1]
  have hflag : (flag o).extra before = [t] := by
    rw [extra, hnew, htask]
    rfl
  have hrest : extrasAfter (before ++ [.positional t]) (after.filter (· ≠ .flag o))
      = extrasAfter (before ++ [.flag o]) after := by
    refine extrasAfter_filter_flag hf hus.2.2 ?_ fun o' ho' => ?_
    · simp [gives]
    · rw [List.any_append, List.any_append]
      simp [gives, ho'.symm]
  rw [extras, extras, extrasAfter_append, extrasAfter_append, List.nil_append, extrasAfter,
    extrasAfter, hrest, hflag]
  rfl

theorem mem_named_iff (hbefore : .flag o ∉ before) :
    u ∈ before ++ .positional t :: after.filter (· ≠ .flag o) ↔
      u = .positional t ∨ u ∈ before ++ .flag o :: after ∧ u ≠ .flag o := by
  have hne (h : u ∈ before) : u ≠ .flag o := fun heq => hbefore (heq ▸ h)
  simp only [List.mem_append, List.mem_cons, List.mem_filter, decide_eq_true_eq]
  tauto

/-- With the task in place of the flag occurrences come to the same without the flag. -/
theorem Reads.drops (hs : s.Distinct) (hf : o.takesValue = false) (htask : o.task? = some t)
    (hus : ∀ u ∈ before ++ .flag o :: after, u.Of s) (hbefore : .flag o ∉ before)
    (hp : Reads (before ++ .flag o :: after) p)
    (hq : Reads (before ++ .positional t :: after.filter (· ≠ .flag o)) q) : p.Drops o.id q where
  has_eq j := by
    have ho : o ∈ s.options :=
      (hus (.flag o) (List.mem_append_right before List.mem_cons_self)).1
    rw [Bool.eq_iff_iff, Bool.and_eq_true, decide_eq_true_eq, hp.has_iff, hq.has_iff]
    constructor
    · rintro ⟨u, hu, o', huo, rfl⟩
      rcases (mem_named_iff hbefore).1 hu with rfl | ⟨hu, hne⟩
      · cases huo
      · refine ⟨⟨u, hu, o', huo, rfl⟩, fun hid => hne ?_⟩
        obtain rfl := eq_of_id hs hus ho hu huo hid
        exact (hus u hu).eq_flag hf huo
    · rintro ⟨⟨u, hu, o', huo, rfl⟩, hne⟩
      refine ⟨u, (mem_named_iff hbefore).2 (.inr ⟨hu, ?_⟩), o', huo, rfl⟩
      rintro rfl
      cases huo
      exact hne rfl
  values_eq j := by
    have hafter : (after.filter (· ≠ .flag o)).filterMap (valueFor? j)
        = after.filterMap (valueFor? j) := by
      rw [List.filterMap_filter]
      refine List.filterMap_congr fun u _ => ?_
      by_cases hu : u = .flag o <;> simp [hu, valueFor?]
    rw [hp.values_eq, hq.values_eq, List.filterMap_append, List.filterMap_append,
      List.filterMap_cons, List.filterMap_cons, hafter]
    rfl
  extra_eq := by rw [hp.extra_eq, hq.extra_eq, extras_named hf htask hus hbefore]

/-- No option comes to occur more often, or goes without a value. -/
theorem Admissible.named (h : Admissible (before ++ .flag o :: after)) :
    Admissible (before ++ .positional t :: after.filter (· ≠ .flag o)) where
  once o' ho' := by
    have hpositional : (positional t).option? = none := rfl
    have hle : (after.filter (· ≠ .flag o)).countP (·.option? = some o')
        ≤ after.countP (·.option? = some o') := List.filter_sublist.countP_le
    have honce := h.once o' ho'
    rw [List.countP_append, List.countP_cons] at honce
    rw [List.countP_append, List.countP_cons_of_neg (by simp [hpositional])]
    omega
  supplied o' ho' := by
    have hbare : .bare o' ∈ before ++ .flag o :: after := by
      simp only [List.mem_append, List.mem_cons, List.mem_filter] at ho' ⊢
      tauto
    obtain ⟨v, hv⟩ := h.supplied o' hbare
    refine ⟨v, ?_⟩
    simp only [List.mem_append, List.mem_cons, List.mem_filter] at hv ⊢
    simpa using hv

end Occurrence

/-! ## Pieces -/

namespace Piece

open Occurrence (Admissible Reads extrasAfter gives)

variable {ps before after : List Piece} {trailing : List String} {p q : CommandLine}

/-- The task in place of the flag that stands between the pieces, and no such flag after it. -/
def named (o : OptionSpec) (t : String) (before after : List Piece) : List Piece :=
  before ++ ⟨[t], .positional t⟩ :: after.filter fun p => p.meaning ≠ .flag o

theorem map_meaning_named (o : OptionSpec) (t : String) (before after : List Piece)
    (trailing : List String) :
    (named o t before after).map meaning ++ trailing.map .positional
      = before.map meaning ++ .positional t ::
        (after.map meaning ++ trailing.map Occurrence.positional).filter (· ≠ .flag o) := by
  have hafter : (after.filter fun p => p.meaning ≠ .flag o).map meaning
      = (after.map meaning).filter (· ≠ .flag o) := by
    rw [List.filter_map]
    rfl
  have htrailing : (trailing.map Occurrence.positional).filter (· ≠ .flag o)
      = trailing.map .positional := by
    simp [List.filter_eq_self]
  rw [named, List.map_append, List.map_cons, hafter, List.filter_append, htrailing,
    List.append_assoc, List.cons_append]

/-- An argument that an option takes as its value is no extra argument. -/
theorem length_extrasAfter_said (hvalue : ∀ p ∈ ps, ∀ o, p.meaning = .bare o → o.task? = none)
    {first second : List Occurrence}
    (hsame : ∀ o : OptionSpec, o.task? ≠ none → first.any (gives o) = second.any (gives o)) :
    (extrasAfter first (said ps)).length ≤ (extrasAfter second (ps.map meaning)).length ∧
      (Swallows ps → (extrasAfter first (said ps)).length
        < (extrasAfter second (ps.map meaning)).length) := by
  fun_induction said ps generalizing first second with
  | case1 ts o ts' t ps ih =>
    rw [List.forall_mem_cons, List.forall_mem_cons] at hvalue
    have htask : o.task? = none := hvalue.1 o rfl
    have hsame' : ∀ o' : OptionSpec, o'.task? ≠ none →
        (first ++ [Occurrence.valued o t]).any (gives o')
          = (second ++ [Occurrence.bare o] ++ [Occurrence.positional t]).any (gives o') := by
      intro o' ho'
      have hne : o ≠ o' := by
        rintro rfl
        exact ho' htask
      simp [hsame o' ho', gives, hne]
    have hlt : (extrasAfter first (.valued o t :: said ps)).length
        < (extrasAfter second (.bare o :: .positional t :: ps.map meaning)).length := by
      simpa [extrasAfter, Occurrence.extra, htask, Nat.lt_succ_iff] using (ih hvalue.2.2 hsame').1
    exact ⟨Nat.le_of_lt hlt, fun _ => hlt⟩
  | case2 p ps hne ih =>
    rw [List.forall_mem_cons] at hvalue
    have hextra : p.meaning.extra first = p.meaning.extra second :=
      Occurrence.extra_congr fun o _ => hsame o
    have hsame' : ∀ o' : OptionSpec, o'.task? ≠ none →
        (first ++ [p.meaning]).any (gives o') = (second ++ [p.meaning]).any (gives o') := by
      intro o' ho'
      rw [List.any_append, List.any_append, hsame o' ho']
    obtain ⟨hle, hlt⟩ := ih hvalue.2 hsame'
    rw [List.map_cons, extrasAfter, extrasAfter, hextra, List.length_append, List.length_append]
    exact ⟨Nat.add_le_add_left hle _, fun h => Nat.add_lt_add_left (hlt (h.tail hne)) _⟩
  | case3 =>
    refine ⟨Nat.le_refl _, fun h => ?_⟩
    obtain ⟨o, t, h⟩ := h
    simp at h

theorem admissible_said (h : Admissible (ps.map meaning ++ trailing.map .positional)) :
    Admissible (said ps ++ trailing.map .positional) where
  once o ho := by
    have hcount (us : List Occurrence) :
        us.countP (·.option? = some o) = (us.filterMap Occurrence.option?).count o := by
      rw [List.count_filterMap]
      exact List.countP_congr fun u _ => by simp
    have honce := h.once o ho
    rw [hcount, List.filterMap_append] at honce
    rw [hcount, List.filterMap_append, filterMap_option?_said]
    exact honce
  supplied o ho := by
    have hbare : .bare o ∈ ps.map meaning ++ trailing.map .positional := by
      rw [List.mem_append] at ho ⊢
      exact ho.imp bare_mem_of_said id
    obtain ⟨v, hv⟩ := h.supplied o hbare
    rw [List.mem_append] at hv
    exact ⟨v, List.mem_append.2 (hv.imp valued_mem_said id)⟩

theorem has_eq_of_said (hp : Reads (ps.map meaning ++ trailing.map .positional) p)
    (hq : Reads (said ps ++ trailing.map .positional) q) (j : String) : q.has j = p.has j := by
  have hoption (us : List Occurrence) : (∃ u ∈ us, ∃ o, u.option? = some o ∧ o.id = j) ↔
      ∃ o ∈ us.filterMap Occurrence.option?, o.id = j := by
    simp only [List.mem_filterMap]
    exact ⟨fun ⟨u, hu, o, ho, hj⟩ => ⟨o, ⟨u, hu, ho⟩, hj⟩,
      fun ⟨o, ⟨u, hu, ho⟩, hj⟩ => ⟨u, hu, o, ho, hj⟩⟩
  rw [Bool.eq_iff_iff, hp.has_iff, hq.has_iff, hoption, hoption, List.filterMap_append,
    List.filterMap_append, filterMap_option?_said]

theorem values_eq_of_said {id : String} (hbare : ∀ o, .bare o ∈ ps.map meaning → o.id ≠ id)
    (hp : Reads (ps.map meaning ++ trailing.map .positional) p)
    (hq : Reads (said ps ++ trailing.map .positional) q) : q.values id = p.values id := by
  rw [hp.values_eq, hq.values_eq, List.filterMap_append, List.filterMap_append,
    filterMap_valueFor?_said hbare]

theorem Swallows.length_extra_lt (h : Swallows ps)
    (hvalue : ∀ p ∈ ps, ∀ o, p.meaning = .bare o → o.task? = none)
    (hp : Reads (ps.map meaning ++ trailing.map .positional) p)
    (hq : Reads (said ps ++ trailing.map .positional) q) : q.extra.length < p.extra.length := by
  have hlt : (extrasAfter [] (said ps)).length < (extrasAfter [] (ps.map meaning)).length :=
    (length_extrasAfter_said hvalue fun _ _ => rfl).2 h
  rw [hp.extra_eq, hq.extra_eq, Occurrence.extras, Occurrence.extras,
    Occurrence.extrasAfter_append, Occurrence.extrasAfter_append,
    Occurrence.extrasAfter_positional, Occurrence.extrasAfter_positional, List.length_append,
    List.length_append]
  exact Nat.add_lt_add_right hlt _

/-- The pieces with the task in place of the flag say what they say by themselves. -/
theorem of_named (hplain : Token.IsPlain (.ofString t)) {f : Piece}
    (h : ∀ p ∈ before ++ f :: after, p.Of s) : ∀ p ∈ named o t before after, p.Of s := by
  rw [List.forall_mem_append, List.forall_mem_cons] at h
  rw [named, List.forall_mem_append, List.forall_mem_cons]
  refine ⟨h.1, ⟨.positional hplain .nil, ?_⟩, fun p hp => h.2.2 p (List.mem_filter.1 hp).1⟩
  simpa using (ne_escape_of_isPlain hplain).symm

end Piece

/-! ## Reading -/

open Occurrence (Admissible Reads)
open Piece (Swallows join named said)

/-- With the task in place of the flag arguments are accepted. What is read is the same without
    the flag, unless an option takes as its value what is no longer behind the flag: then there
    is an extra argument less. -/
theorem Schema.exists_parse_named (hs : s.Distinct) (ht : s.Typable)
    (hvalue : ∀ o ∈ s.options, o.takesValue = true → o.task? = none) {ts rest : List String}
    {p : CommandLine} (h : s.parse ((ts ++ rest).map .ofString) = .ok p)
    (hrest : ∀ t ∈ rest.head?, t = "--") {before after : List Piece} {f : Piece}
    (hps : Cuts s ts (before ++ f :: after)) (hescape : "--" ∉ ts) (hmeaning : f.meaning = .flag o)
    (htask : o.task? = some t) (hplain : Token.IsPlain (.ofString t))
    (hbefore : ∀ q ∈ before, q.meaning ≠ .flag o) :
    ∃ q, s.parse ((join (named o t before after) ++ rest).map .ofString) = .ok q ∧
      p.has o.id = true ∧
      (∀ j, q.has j = (p.has j && j ≠ o.id)) ∧
      (∀ o' ∈ s.options, o'.arity = .single → q.values o'.id = p.values o'.id) ∧
      (¬ Swallows (named o t before after) → p.Drops o.id q) ∧
      (Swallows (named o t before after) → q.extra.length < p.extra.length) := by
  have hend := not_isPlain_escape hrest
  obtain ⟨trailing, htrailing⟩ := exists_splits_escape (s := s) hrest
  obtain ⟨us, hsplits, hadm, hp⟩ := (parse_ofString_eq_ok_iff hs ht).1 h
  obtain rfl : (before ++ f :: after).map Piece.meaning ++ trailing.map .positional = us :=
    (hps.splits.append hescape htrailing fun _ _ => hend).unique hs ht hsplits
  have hmeanings : (before ++ f :: after).map Piece.meaning ++ trailing.map .positional
      = before.map Piece.meaning
        ++ .flag o :: (after.map Piece.meaning ++ trailing.map .positional) := by
    rw [List.map_append, List.map_cons, hmeaning, List.append_assoc, List.cons_append]
  have hnamed := Piece.map_meaning_named o t before after trailing
  have hus := hsplits.of
  rw [hmeanings] at hus hadm hp
  have hflag : .flag o ∉ before.map Piece.meaning := by
    simpa using hbefore
  have hf : o.takesValue = false := (hus (.flag o) (by simp)).2
  have hof : ∀ q ∈ named o t before after, q.Of s :=
    Piece.of_named hplain (hps.forall_of ht)
  have hjoin := Piece.splits_join hof htrailing hend
  have hadm' : Admissible ((named o t before after).map Piece.meaning
      ++ trailing.map .positional) := hnamed ▸ hadm.named
  have hof' : ∀ u ∈ (named o t before after).map Piece.meaning ++ trailing.map .positional,
      u.Of s := by
    rw [List.forall_mem_append, List.forall_mem_map]
    exact ⟨fun q hq => (hof q hq).splits.of _ (List.mem_singleton.2 rfl), htrailing.of⟩
  -- `r` is what the pieces come to when each says what it says by itself
  obtain ⟨r, hr⟩ := Occurrence.exists_reads hs hof'
  obtain ⟨q, hq⟩ := Occurrence.exists_reads hs hjoin.of
  have hdrops : p.Drops o.id r := Reads.drops hs hf htask hus hflag hp (hnamed ▸ hr)
  refine ⟨q, (parse_ofString_eq_ok_iff hs ht).2 ⟨_, hjoin, Piece.admissible_said hadm', hq⟩,
    (hp.has_iff _).2 ⟨.flag o, by simp, o, rfl, rfl⟩, fun j => ?_, fun o' ho' hsingle => ?_,
    fun hswallows => ?_, fun hswallows => ?_⟩
  · rw [Piece.has_eq_of_said hr hq, hdrops.has_eq]
  · have hbare : ∀ o'', .bare o'' ∈ (named o t before after).map Piece.meaning →
        o''.id ≠ o'.id := by
      intro o'' hmem hid
      have hmem := List.mem_append_left (trailing.map Occurrence.positional) hmem
      obtain rfl : o'' = o' := Occurrence.eq_of_id hs hof' ho' hmem rfl hid
      cases hsingle.symm.trans (hadm'.arity_of_bare hof' hmem)
    rw [← hdrops.values_eq, Piece.values_eq_of_said hbare hr hq]
  · rw [Piece.said_of_not_swallows hswallows] at hq
    obtain rfl := hq.unique hr
    exact hdrops
  · rw [← hdrops.extra_eq]
    refine hswallows.length_extra_lt (fun q hmem o' ho' => ?_) hr hq
    have hq := hof' q.meaning (List.mem_append_left _ (List.mem_map_of_mem hmem))
    rw [ho'] at hq
    exact hvalue o' hq.1 hq.2

end LaunchConfig
