/-!
# Cutting a list at a separator

Results:

* `cutAt_none`, `cutAt_some`: the first separator, if any, is where the list is
  cut, and nothing but that separator is lost;
* `cutAt_of_not_mem`, `cutAt_append`: the same two cases, read from the parts.
-/

namespace LaunchConfig

/-- What stands before the first `sep`, and what stands after it; nothing stands
    after it if there is no `sep`. -/
def cutAt {α : Type} [DecidableEq α] (sep : α) : List α → List α × Option (List α)
  | [] => ([], none)
  | x :: xs =>
    if x = sep then ([], some xs)
    else
      let (before, after) := cutAt sep xs
      (x :: before, after)

variable {α : Type} [DecidableEq α] {sep : α}

@[simp] theorem cutAt_nil : cutAt sep [] = ([], none) := rfl

@[simp] theorem cutAt_cons_self (xs : List α) : cutAt sep (sep :: xs) = ([], some xs) := by
  simp [cutAt]

theorem cutAt_cons_of_ne {x : α} (h : x ≠ sep) (xs : List α) :
    cutAt sep (x :: xs) = (x :: (cutAt sep xs).1, (cutAt sep xs).2) := by
  simp [cutAt, h]

/-- The part before the cut holds no separator. -/
theorem not_mem_cutAt_fst (xs : List α) : sep ∉ (cutAt sep xs).1 := by
  induction xs with
  | nil => simp
  | cons x xs ih =>
    by_cases h : x = sep
    · simp [h]
    · simp [cutAt_cons_of_ne h, ih, Ne.symm h]

/-- Without a separator the whole list stands before the cut. -/
theorem cutAt_of_not_mem {xs : List α} (h : sep ∉ xs) : cutAt sep xs = (xs, none) := by
  induction xs with
  | nil => rfl
  | cons x xs ih =>
    simp only [List.mem_cons, not_or] at h
    rw [cutAt_cons_of_ne (Ne.symm h.1), ih h.2]

/-- The first separator is where the list is cut. -/
theorem cutAt_append {xs : List α} (h : sep ∉ xs) (ys : List α) :
    cutAt sep (xs ++ sep :: ys) = (xs, some ys) := by
  induction xs with
  | nil => simp
  | cons x xs ih =>
    simp only [List.mem_cons, not_or] at h
    rw [List.cons_append, cutAt_cons_of_ne (Ne.symm h.1), ih h.2]

/-- A list that is not cut is what stands before the cut. -/
theorem cutAt_none {xs before : List α} (h : cutAt sep xs = (before, none)) : xs = before := by
  induction xs generalizing before with
  | nil => simpa using h
  | cons x xs ih =>
    by_cases hx : x = sep
    · simp [hx] at h
    · rw [cutAt_cons_of_ne hx] at h
      obtain ⟨rfl, ha⟩ := Prod.mk.inj h
      exact congrArg (x :: ·) (ih (Prod.ext rfl ha))

/-- The two parts and the separator make up the list that was cut. -/
theorem cutAt_some {xs before after : List α} (h : cutAt sep xs = (before, some after)) :
    xs = before ++ sep :: after := by
  induction xs generalizing before with
  | nil => simp at h
  | cons x xs ih =>
    by_cases hx : x = sep
    · subst hx
      obtain ⟨rfl, ha⟩ := Prod.mk.inj ((cutAt_cons_self xs).symm.trans h)
      simp_all
    · rw [cutAt_cons_of_ne hx] at h
      obtain ⟨rfl, ha⟩ := Prod.mk.inj h
      exact congrArg (x :: ·) (ih (Prod.ext rfl ha))

end LaunchConfig
