/-!
# Dictionaries with sorted keys

A `Dict` holds at most one value for each key and lists its entries by ascending
key, so two dictionaries that answer every look-up alike are equal.

Results:

* `ext`: equal look-ups, equal dictionaries;
* `find?_empty`, `find?_insert`, `find?_upsert`: what each operation does to the
  look-ups;
* `find?_eq_some_iff`: the look-ups are the entries;
* `ofList_entries`: a dictionary is put together again from its entries.
-/

namespace LaunchConfig

/-- Entries by ascending key. -/
structure Dict (α : Type) where
  entries : List (String × α) := []
  sorted : entries.Pairwise (fun a b => a.1 < b.1) := by exact .nil

namespace Dict

variable {α : Type}

/-! ## Sorted lists of entries -/

/-- The value at a key. -/
def lookup (k : String) : List (String × α) → Option α
  | [] => none
  | (k', v) :: rest => if k = k' then some v else lookup k rest

/-- Give `f` the value at `k`, if there is one, and put its answer there. -/
def place (k : String) (f : Option α → α) : List (String × α) → List (String × α)
  | [] => [(k, f none)]
  | (k', v) :: rest =>
    if k = k' then (k', f (some v)) :: rest
    else if k < k' then (k, f none) :: (k', v) :: rest
    else (k', v) :: place k f rest

theorem lookup_eq_none {k : String} {l : List (String × α)} (h : ∀ e ∈ l, k ≠ e.1) :
    lookup k l = none := by
  induction l with
  | nil => rfl
  | cons e rest ih =>
    obtain ⟨k', v⟩ := e
    have hk : k ≠ k' := h (k', v) (by simp)
    simp only [lookup, if_neg hk]
    exact ih fun e he => h e (by simp [he])

/-- No key is found before the first of the keys. -/
theorem lookup_eq_none_of_lt {k : String} {l : List (String × α)} (h : ∀ e ∈ l, k < e.1) :
    lookup k l = none := by
  refine lookup_eq_none fun e he heq => ?_
  have hlt := h e he
  rw [← heq] at hlt
  exact String.lt_irrefl _ hlt

theorem mem_of_lookup {k : String} {v : α} {l : List (String × α)} (h : lookup k l = some v) :
    (k, v) ∈ l := by
  induction l with
  | nil => simp [lookup] at h
  | cons e rest ih =>
    obtain ⟨k', v'⟩ := e
    by_cases hk : k = k'
    · simp_all [lookup]
    · simp only [lookup, if_neg hk] at h
      exact List.mem_cons_of_mem _ (ih h)

theorem lookup_of_mem {k : String} {v : α} {l : List (String × α)}
    (hl : l.Pairwise (fun a b => a.1 < b.1)) (h : (k, v) ∈ l) : lookup k l = some v := by
  induction l with
  | nil => simp at h
  | cons e rest ih =>
    obtain ⟨k', v'⟩ := e
    rw [List.pairwise_cons] at hl
    rcases List.mem_cons.1 h with heq | hmem
    · simp_all [lookup]
    · have hk : k ≠ k' := fun heq => String.lt_irrefl _ (heq ▸ hl.1 _ hmem)
      simp only [lookup, if_neg hk]
      exact ih hl.2 hmem

theorem fst_of_mem_place {k : String} {f : Option α → α} {l : List (String × α)}
    {e : String × α} (h : e ∈ place k f l) : e.1 = k ∨ ∃ e' ∈ l, e'.1 = e.1 := by
  induction l with
  | nil => simp_all [place]
  | cons e' rest ih =>
    obtain ⟨k', v⟩ := e'
    unfold place at h
    split at h
    · rcases List.mem_cons.1 h with rfl | h
      · exact .inr ⟨(k', v), by simp, rfl⟩
      · exact .inr ⟨e, by simp [h], rfl⟩
    · split at h
      · rcases List.mem_cons.1 h with rfl | h
        · exact .inl rfl
        · exact .inr ⟨e, h, rfl⟩
      · rcases List.mem_cons.1 h with rfl | h
        · exact .inr ⟨(k', v), by simp, rfl⟩
        · rcases ih h with h | ⟨e', he', h⟩
          · exact .inl h
          · exact .inr ⟨e', by simp [he'], h⟩

theorem place_sorted {k : String} {f : Option α → α} {l : List (String × α)}
    (hl : l.Pairwise (fun a b => a.1 < b.1)) :
    (place k f l).Pairwise (fun a b => a.1 < b.1) := by
  induction l with
  | nil => simp [place]
  | cons e rest ih =>
    obtain ⟨k', v⟩ := e
    rw [List.pairwise_cons] at hl
    unfold place
    split
    · exact List.pairwise_cons.2 ⟨hl.1, hl.2⟩
    · next hne =>
      split
      · next hlt =>
        refine List.pairwise_cons.2 ⟨?_, List.pairwise_cons.2 hl⟩
        intro e he
        rcases List.mem_cons.1 he with rfl | he
        · exact hlt
        · exact String.lt_trans hlt (hl.1 e he)
      · next hnlt =>
        have hgt : k' < k := by
          rcases Decidable.em (k' < k) with h | h
          · exact h
          · exact absurd (String.le_antisymm (String.not_lt.1 h) (String.not_lt.1 hnlt)) hne
        refine List.pairwise_cons.2 ⟨?_, ih hl.2⟩
        intro e he
        rcases fst_of_mem_place he with h | ⟨e', he', h⟩
        · exact h ▸ hgt
        · exact h ▸ hl.1 e' he'

theorem lookup_place (k : String) (f : Option α → α) {l : List (String × α)}
    (hl : l.Pairwise (fun a b => a.1 < b.1)) (j : String) :
    lookup j (place k f l) = if j = k then some (f (lookup k l)) else lookup j l := by
  induction l with
  | nil => simp [place, lookup]
  | cons e rest ih =>
    obtain ⟨k', v⟩ := e
    rw [List.pairwise_cons] at hl
    by_cases hk : k = k'
    · subst hk
      by_cases hj : j = k <;> simp [place, lookup, hj]
    · by_cases hlt : k < k'
      · have hnone : lookup k rest = none :=
          lookup_eq_none_of_lt fun e he => String.lt_trans hlt (hl.1 e he)
        by_cases hj : j = k <;> simp [place, lookup, hk, hlt, hj, hnone]
      · simp only [place, lookup, if_neg hk, if_neg hlt, ih hl.2]
        by_cases hj : j = k
        · subst hj
          simp [hk]
        · simp [hj]

/-! ## Look-ups -/

/-- The value at a key. -/
def find? (d : Dict α) (k : String) : Option α := lookup k d.entries

/-- Is there a value at the key? -/
def contains (d : Dict α) (k : String) : Bool := (d.find? k).isSome

/-- The number of keys. -/
def size (d : Dict α) : Nat := d.entries.length

/-- The keys, ascending. -/
def keys (d : Dict α) : List String := d.entries.map Prod.fst

theorem find?_eq_some_iff {d : Dict α} {k : String} {v : α} :
    d.find? k = some v ↔ (k, v) ∈ d.entries :=
  ⟨mem_of_lookup, lookup_of_mem d.sorted⟩

theorem mem_keys_iff {d : Dict α} {k : String} : k ∈ d.keys ↔ d.contains k = true := by
  simp only [keys, List.mem_map, contains, Option.isSome_iff_exists, find?_eq_some_iff]
  constructor
  · rintro ⟨⟨k', v⟩, h, rfl⟩
    exact ⟨v, h⟩
  · rintro ⟨v, h⟩
    exact ⟨(k, v), h, rfl⟩

/-- No key is listed twice. -/
theorem keys_nodup (d : Dict α) : d.keys.Nodup := by
  refine List.Pairwise.map _ (fun a b h => ?_) d.sorted
  rintro heq
  exact String.lt_irrefl _ (heq ▸ h)

/-- There are as many entries as there are keys. -/
theorem size_eq_length (d : Dict α) {ks : List String} (hnodup : ks.Nodup)
    (hks : ∀ k, k ∈ ks ↔ d.contains k = true) : d.size = ks.length := by
  have hperm : d.keys.Perm ks := by
    refine (List.perm_ext_iff_of_nodup d.keys_nodup hnodup).2 fun k => ?_
    rw [mem_keys_iff, hks]
  calc d.size = d.keys.length := (List.length_map _).symm
    _ = ks.length := hperm.length_eq

/-- Sorted lists with the same members are equal. -/
theorem entries_ext {l m : List (String × α)} (hl : l.Pairwise (fun a b => a.1 < b.1))
    (hm : m.Pairwise (fun a b => a.1 < b.1)) (h : ∀ e, e ∈ l ↔ e ∈ m) : l = m := by
  induction l generalizing m with
  | nil =>
    cases m with
    | nil => rfl
    | cons e m => exact absurd ((h e).2 (by simp)) (by simp)
  | cons e l ih =>
    cases m with
    | nil => exact absurd ((h e).1 (by simp)) (by simp)
    | cons e' m =>
      rw [List.pairwise_cons] at hl hm
      have hee : e = e' := by
        rcases List.mem_cons.1 ((h e).1 (by simp)) with h1 | h1
        · exact h1
        · rcases List.mem_cons.1 ((h e').2 (by simp)) with h2 | h2
          · exact h2.symm
          · exact absurd (hl.1 e' h2) (String.lt_asymm (hm.1 e h1))
      subst hee
      refine congrArg (e :: ·) (ih hl.2 hm.2 fun x => ?_)
      have hx := h x
      simp only [List.mem_cons] at hx
      constructor
      · intro hxl
        rcases hx.1 (.inr hxl) with rfl | hxm
        · exact absurd (hl.1 _ hxl) (String.lt_irrefl _)
        · exact hxm
      · intro hxm
        rcases hx.2 (.inr hxm) with rfl | hxl
        · exact absurd (hm.1 _ hxm) (String.lt_irrefl _)
        · exact hxl

@[ext] theorem ext {d e : Dict α} (h : ∀ k, d.find? k = e.find? k) : d = e := by
  obtain ⟨l, hl⟩ := d
  obtain ⟨m, hm⟩ := e
  have hlm : l = m := entries_ext hl hm fun (k, v) => by
    have := h k
    rw [← find?_eq_some_iff (d := ⟨l, hl⟩), ← find?_eq_some_iff (d := ⟨m, hm⟩), this]
  subst hlm
  rfl

instance [DecidableEq α] : DecidableEq (Dict α) := fun d e =>
  decidable_of_iff (d.entries = e.entries) ⟨fun h => by
    obtain ⟨l, hl⟩ := d
    obtain ⟨m, hm⟩ := e
    subst h
    rfl, fun h => h ▸ rfl⟩

/-! ## Building dictionaries -/

/-- The dictionary without keys. -/
def empty : Dict α := {}

instance : EmptyCollection (Dict α) := ⟨empty⟩
instance : Inhabited (Dict α) := ⟨empty⟩

@[simp] theorem find?_empty (k : String) : (∅ : Dict α).find? k = none := rfl

/-- Put at `k` what `f` makes of the value there, if there is one. -/
def upsert (d : Dict α) (k : String) (f : Option α → α) : Dict α :=
  ⟨place k f d.entries, place_sorted d.sorted⟩

/-- Put `v` at `k`, in the place of any other value. -/
def insert (d : Dict α) (k : String) (v : α) : Dict α := d.upsert k fun _ => v

theorem find?_upsert (d : Dict α) (k : String) (f : Option α → α) (j : String) :
    (d.upsert k f).find? j = if j = k then some (f (d.find? k)) else d.find? j :=
  lookup_place k f d.sorted j

theorem find?_insert (d : Dict α) (k : String) (v : α) (j : String) :
    (d.insert k v).find? j = if j = k then some v else d.find? j :=
  find?_upsert d k _ j

/-- The entries in turn, later ones in the place of earlier ones. -/
def ofList (entries : List (String × α)) : Dict α :=
  entries.foldl (fun d (k, v) => d.insert k v) ∅

/-- What is found after entries have been put whose keys ascend. -/
theorem find?_foldl_insert {l : List (String × α)} (hl : l.Pairwise (fun a b => a.1 < b.1))
    (d : Dict α) (k : String) :
    (l.foldl (fun d (k, v) => d.insert k v) d).find? k = (lookup k l).or (d.find? k) := by
  induction l generalizing d with
  | nil => rfl
  | cons e rest ih =>
    obtain ⟨k', v⟩ := e
    rw [List.pairwise_cons] at hl
    rw [List.foldl_cons, ih hl.2, find?_insert, lookup]
    by_cases hk : k = k'
    · have hnone : lookup k rest = none := lookup_eq_none_of_lt fun e he => hk ▸ hl.1 e he
      rw [if_pos hk, if_pos hk, hnone, Option.none_or, Option.some_or]
    · rw [if_neg hk, if_neg hk]

/-- The entries of a dictionary make up the dictionary. -/
theorem ofList_entries (d : Dict α) : ofList d.entries = d := by
  ext k
  rw [ofList, find?_foldl_insert d.sorted, find?_empty, Option.or_none]
  rfl

end Dict
end LaunchConfig
