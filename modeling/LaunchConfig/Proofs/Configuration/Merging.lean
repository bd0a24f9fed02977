import LaunchConfig.Configuration.Property

/-!
# Putting properties into a dictionary

Properties are put into a dictionary one after the other. What is found under a key in the end
is the value of the last of them that has the key, and what was there before if none has. This
says all there is to say about a run of insertions: to put the same properties again changes
nothing, and properties without a common key may be put in either order.

`Property.Given` says what a text gives without reading it: a key, in which there is no `=`, and
then, behind the first `=` of the text, the value.

Results:

* `Property.given_iff`: a text gives the property that is read from it, and no other;
* `find?_putProperties`: what is found after properties have been put;
* `putProperties_idem`, `putProperties_comm`: what follows for two runs of insertions;
* `putProperties_lastGiven`: all of this, in terms of what the texts give.
-/

namespace LaunchConfig

namespace Property

variable {p : Property} {ps : List Property} {key : String}

/-- The value of the last property with the key. -/
def lastValue? (ps : List Property) (key : String) : Option String :=
  (ps.reverse.find? fun p => p.key = key).map (·.value)

theorem lastValue?_cons (p : Property) (ps : List Property) (key : String) :
    lastValue? (p :: ps) key
      = (lastValue? ps key).or (if key = p.key then some p.value else none) := by
  rw [lastValue?, List.reverse_cons, List.find?_append, Option.map_or, lastValue?]
  by_cases hp : p.key = key <;> simp [hp, eq_comm]

theorem lastValue?_eq_none_iff : lastValue? ps key = none ↔ ∀ p ∈ ps, p.key ≠ key := by
  simp [lastValue?]

theorem exists_mem_of_lastValue? (h : (lastValue? ps key).isSome = true) :
    ∃ p ∈ ps, p.key = key := by
  simpa [lastValue?] using h

theorem map_ofText_map_text (h : ∀ p ∈ ps, '=' ∉ p.key.toList) :
    (ps.map text).map ofText = ps := by
  have hread : ∀ p ∈ ps, (ofText ∘ text) p = id p := fun p hp => ofText_text (h p hp)
  rw [List.map_map, List.map_congr_left hread, List.map_id]

/-! ## What a text gives -/

/-- The text has the key before its first `=` and the value behind it. A text without `=` is
    itself the key, and its value is empty. -/
inductive Given (key : String) : String → String → Prop
  | valued {value : String} : '=' ∉ key.toList → Given key value (key ++ "=" ++ value)
  | bare : '=' ∉ key.toList → Given key "" key

theorem given_iff {value t : String} : Given key value t ↔ ofText t = ⟨key, value⟩ := by
  constructor
  · rintro (hkey | hkey)
    · exact ofText_text (p := ⟨key, value⟩) hkey
    · simp [ofText, cutAt_of_not_mem hkey]
  · intro h
    have hkey : '=' ∉ key.toList := by simpa [h] using not_mem_key t
    have ht : t = String.ofList t.toList := String.ofList_toList.symm
    unfold ofText at h
    rcases hcut : cutAt '=' t.toList with ⟨before, after | after⟩
    · rw [hcut] at h
      obtain ⟨rfl, rfl⟩ := Property.mk.inj h
      rw [ht, cutAt_none hcut]
      exact .bare hkey
    · rw [hcut] at h
      obtain ⟨rfl, rfl⟩ := Property.mk.inj h
      rw [ht, cutAt_some hcut, ← List.singleton_append, ← List.append_assoc,
        String.ofList_append, String.ofList_append]
      exact .valued hkey

/-- The last of the texts that have the key gives it the value. -/
def LastGiven (ts : List String) (key value : String) : Prop :=
  ∃ before t after, ts = before ++ t :: after ∧ Given key value t ∧
    ∀ u ∈ after, ∀ w, ¬ Given key w u

/-- None of the texts has the key. -/
def NotGiven (ts : List String) (key : String) : Prop := ∀ t ∈ ts, ∀ w, ¬ Given key w t

theorem forall_not_given_iff {t : String} :
    (∀ w, ¬ Given key w t) ↔ (ofText t).key ≠ key := by
  simp only [given_iff]
  constructor
  · rintro h rfl
    exact h _ rfl
  · rintro hne w h
    exact hne (congrArg Property.key h)

theorem lastValue?_eq_none_iff_notGiven {ts : List String} :
    lastValue? (ts.map ofText) key = none ↔ NotGiven ts key := by
  simp only [lastValue?_eq_none_iff, List.forall_mem_map, NotGiven, forall_not_given_iff]

theorem lastValue?_eq_some_iff_lastGiven {ts : List String} {value : String} :
    lastValue? (ts.map ofText) key = some value ↔ LastGiven ts key value := by
  rw [lastValue?, ← List.map_reverse, List.find?_map, Option.map_map, Option.map_eq_some_iff]
  simp only [List.find?_eq_some_iff_append, Function.comp_apply, decide_eq_true_eq,
    Bool.not_eq_true', decide_eq_false_iff_not]
  constructor
  · rintro ⟨t, ⟨hkey, after, before, hts, hafter⟩, rfl⟩
    have hts' : ts = before.reverse ++ t :: after.reverse := by
      rw [← List.reverse_reverse ts, hts]
      simp
    refine ⟨before.reverse, t, after.reverse, hts', given_iff.2 (hkey ▸ rfl), fun u hu => ?_⟩
    exact forall_not_given_iff.2 (hafter u (List.mem_reverse.1 hu))
  · rintro ⟨before, t, after, rfl, ht, hafter⟩
    rw [given_iff] at ht
    refine ⟨t, ⟨by rw [ht], after.reverse, before.reverse, by simp, fun u hu => ?_⟩, by rw [ht]⟩
    exact forall_not_given_iff.1 (hafter u (List.mem_reverse.1 hu))

end Property

/-! ## What is found -/

variable {ts us : List String}

/-- The last property with a key counts, and what was there before if there is none. -/
theorem find?_putProperties (d : Dict String) (ts : List String) (key : String) :
    (putProperties d ts).find? key
      = (Property.lastValue? (ts.map Property.ofText) key).or (d.find? key) := by
  induction ts generalizing d with
  | nil => rfl
  | cons t ts ih =>
    rw [putProperties_cons, ih, Dict.find?_insert, List.map_cons, Property.lastValue?_cons,
      Option.or_assoc]
    by_cases hkey : key = (Property.ofText t).key
    · rw [if_pos hkey, if_pos hkey, Option.some_or]
    · rw [if_neg hkey, if_neg hkey, Option.none_or]

/-! ## Two runs -/

/-- To put the same properties again changes nothing. -/
theorem putProperties_idem (d : Dict String) (ts : List String) :
    putProperties (putProperties d ts) ts = putProperties d ts := by
  ext key
  rw [find?_putProperties, find?_putProperties, ← Option.or_assoc, Option.or_self]

/-- The properties have no key in common. -/
def KeysApart (ts us : List String) : Prop :=
  ∀ t ∈ ts, ∀ u ∈ us, (Property.ofText t).key ≠ (Property.ofText u).key

instance (ts us : List String) : Decidable (KeysApart ts us) :=
  inferInstanceAs (Decidable (∀ t ∈ ts, ∀ u ∈ us, _))

theorem KeysApart.lastValue?_eq_none (h : KeysApart ts us) (key : String) :
    Property.lastValue? (ts.map Property.ofText) key = none ∨
      Property.lastValue? (us.map Property.ofText) key = none := by
  simp only [Property.lastValue?_eq_none_iff, List.forall_mem_map]
  by_cases hts : ∀ t ∈ ts, (Property.ofText t).key ≠ key
  · exact .inl hts
  · obtain ⟨t, ht, rfl⟩ : ∃ t ∈ ts, (Property.ofText t).key = key := by simpa using hts
    exact .inr fun u hu => (h t ht u hu).symm

/-- Properties without a common key may be put in either order. -/
theorem putProperties_comm (h : KeysApart ts us) (d : Dict String) :
    putProperties (putProperties d ts) us = putProperties (putProperties d us) ts := by
  ext key
  simp only [find?_putProperties]
  rcases h.lastValue?_eq_none key with hnone | hnone
  · rw [hnone, Option.none_or, Option.none_or]
  · rw [hnone, Option.none_or, Option.none_or]

/-! ## The law of putting properties -/

theorem keysApart_iff :
    KeysApart ts us ↔ ∀ t ∈ ts, ∀ u ∈ us, ∀ key v w,
      Property.Given key v t → ¬ Property.Given key w u := by
  refine forall₂_congr fun t _ => forall₂_congr fun u _ => ?_
  simp only [Property.given_iff]
  constructor
  · rintro hne key v w ht hu
    rw [ht, hu] at hne
    exact hne rfl
  · intro h hkeys
    exact h (Property.ofText t).key _ (Property.ofText u).value rfl (by rw [hkeys])

/-- **What putting properties comes to.** Under a key the value is found that the last text with
    this key gives, and what was there before if no text has it. So to put texts and then others
    is to put all of them in turn, to put the same texts again changes nothing, and texts without
    a common key may be put in either order. -/
theorem putProperties_lastGiven :
    (∀ (d : Dict String) (ts : List String) (key value : String),
      (putProperties d ts).find? key = some value ↔
        Property.LastGiven ts key value ∨
          (Property.NotGiven ts key ∧ d.find? key = some value)) ∧
    (∀ (d : Dict String) (ts us : List String),
      putProperties (putProperties d ts) us = putProperties d (ts ++ us)) ∧
    (∀ (d : Dict String) (ts : List String),
      putProperties (putProperties d ts) ts = putProperties d ts) ∧
    ∀ ts us : List String,
      (∀ t ∈ ts, ∀ u ∈ us, ∀ key v w, Property.Given key v t → ¬ Property.Given key w u) →
      ∀ d : Dict String,
        putProperties (putProperties d ts) us = putProperties (putProperties d us) ts := by
  refine ⟨fun d ts key value => ?_, fun d ts us => (putProperties_append d ts us).symm,
    putProperties_idem, fun ts us h => putProperties_comm (keysApart_iff.2 h)⟩
  rw [find?_putProperties, Option.or_eq_some_iff, Property.lastValue?_eq_some_iff_lastGiven,
    Property.lastValue?_eq_none_iff_notGiven]

/-- A key that is given three times, once without a value, takes the place of the older value. A
    value may hold `=` itself, and a key may be empty. -/
theorem putProperties_lastGiven_repeated :
    (putProperties (putProperties ∅ ["k=0"]) ["k=1", "=x", "k", "k=a=b", "l"]).find? "k"
      = some "a=b" ∧
    (∀ t ∈ ["k", "=x"], ∀ u ∈ ["l=k", "kx"], ∀ key v w,
      Property.Given key v t → ¬ Property.Given key w u) ∧
    putProperties (putProperties ∅ ["k", "=x"]) ["l=k", "kx"]
      = putProperties (putProperties ∅ ["l=k", "kx"]) ["k", "=x"] := by
  obtain ⟨hfind, -, -, hcomm⟩ := putProperties_lastGiven
  have hlast : Property.LastGiven ["k=1", "=x", "k", "k=a=b", "l"] "k" "a=b" :=
    ⟨["k=1", "=x", "k"], "k=a=b", ["l"], rfl, Property.given_iff.2 (by decide),
      List.forall_mem_singleton.2 (Property.forall_not_given_iff.2 (by decide))⟩
  have hapart : KeysApart ["k", "=x"] ["l=k", "kx"] := by decide
  exact ⟨(hfind _ _ _ _).2 (.inl hlast), keysApart_iff.1 hapart,
    hcomm _ _ (keysApart_iff.1 hapart) _⟩

end LaunchConfig
