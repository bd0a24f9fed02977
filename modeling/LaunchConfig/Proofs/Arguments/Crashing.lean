import LaunchConfig.Arguments.Parse

/-!
# When reading crashes

Reading stops at one argument, with the arguments before it read and those after it not.
It crashes if the argument holds an unknown long name and one of those after it is not
UTF-8, unless text that was read before is not UTF-8 either, which is reported first.

Results:

* `scan_eq_error_iff`: where reading stops, and with which halt;
* `parse_eq_crash_iff`: the arguments at which it crashes, where names can be told apart.
-/

namespace LaunchConfig
namespace Grammar

variable {g : Grammar} {items : List Item}

/-! ## One argument -/

theorem readCluster_ne_crash (junk : List UInt8) (cs : List Char) :
    (g.readCluster junk cs).2 ≠ .error .crash := by
  induction cs with
  | nil =>
    unfold readCluster
    split <;> nofun
  | cons c rest ih =>
    unfold readCluster
    split
    · nofun
    · nofun
    · nofun
    · split
      · split <;> nofun
      · exact ih

theorem readLong_ne_crash (name : RawText) (v? : Option RawText) :
    (g.readLong name v?).2 ≠ .error .crash := by
  unfold readLong
  split
  · nofun
  · split
    · split <;> nofun
    · nofun
    · split <;> nofun
    · nofun
    · nofun

theorem readToken_ne_crash (a : RawText) : (g.readToken a).2 ≠ .error .crash := by
  unfold readToken
  split
  · nofun
  · exact readLong_ne_crash _ _
  · exact readCluster_ne_crash _ _
  · nofun

/-- No argument makes reading crash by itself. -/
theorem step_ne_crash (m : Mode) (a : RawText) : (g.step m a).2 ≠ .error .crash := by
  cases m with
  | ready => exact readToken_ne_crash a
  | trailing o? => nofun
  | awaiting o =>
    unfold step
    dsimp only
    split
    · nofun
    · nofun
    · exact readToken_ne_crash a

/-! ## All arguments -/

/-- Reading stops at the first argument that cannot be read, and what comes of it depends
    on those after it. -/
theorem scan_eq_error_iff {m : Mode} {args : List RawText} {halt : Halt} :
    g.scan m args = (items, .error halt) ↔
      ∃ before a rest i₁ m₁ i₂ h, args = before ++ a :: rest ∧
        g.scan m before = (i₁, .ok m₁) ∧ g.step m₁ a = (i₂, .error h) ∧
        items = i₁ ++ i₂ ∧ halt = h.before rest := by
  constructor
  · intro hscan
    induction args generalizing m items with
    | nil => cases (Prod.mk.inj hscan).2
    | cons a args ih =>
      rcases hstep : g.step m a with ⟨i₁, h | m₁⟩
      · rw [scan_cons_error hstep] at hscan
        cases hscan
        exact ⟨[], a, args, [], m, items, h, rfl, rfl, hstep, rfl, rfl⟩
      · rw [scan_cons_ok hstep] at hscan
        obtain ⟨rfl, hnext⟩ := Prod.mk.inj hscan
        obtain ⟨before, b, rest, i₂, m₂, i₃, h, rfl, hbefore, hb, hitems, hhalt⟩ :=
          ih (Prod.ext rfl hnext)
        refine ⟨a :: before, b, rest, i₁ ++ i₂, m₂, i₃, h, rfl, ?_, hb, ?_, hhalt⟩
        · rw [scan_cons_ok hstep, hbefore]
        · rw [List.append_assoc, ← hitems]
  · rintro ⟨before, a, rest, i₁, m₁, i₂, h, rfl, hbefore, hstep, rfl, rfl⟩
    rw [scan_append hbefore, scan_cons_error hstep]

/-- Reading gets to an unknown long name, all text that it looks at is UTF-8, and one of the
    arguments after the name is not. -/
def Crashes (g : Grammar) (args : List RawText) : Prop :=
  ∃ before a rest i₁ m i₂ name, args = before ++ a :: rest ∧
    g.scan .ready before = (i₁, .ok m) ∧
    g.step m a = (i₂, .error (.usage (.unknownLong name))) ∧
    (Item.settled (i₁ ++ i₂)).all Item.readable = true ∧ ∃ b ∈ rest, b.readable = false

theorem conclude_eq_crash_iff {y : Yield} :
    conclude y = .error .crash ↔
      y.2 = .error .crash ∧ (Item.settled y.1).all Item.readable = true := by
  obtain ⟨items, halt | m⟩ := y
  · cases hall : (halt.lookedAt items).all Item.readable with
    | true =>
      simp only [conclude, hall, if_true, Except.error.injEq, iff_self_and]
      rintro rfl
      exact hall
    | false =>
      simp only [conclude, hall, Bool.false_eq_true, if_false, Except.error.injEq, reduceCtorEq,
        false_iff, not_and]
      rintro rfl hsettled
      exact absurd (hall.symm.trans hsettled) (by decide)
  · cases h : Item.fault? m.awaited? (m.complete items) <;> simp [conclude, h]

theorem parse_eq_crash_iff (hparsable : g.schema.Parsable) {args : List RawText} :
    g.parse args = .error .crash ↔ g.Crashes args := by
  rw [parse_of_parsable hparsable, conclude_eq_crash_iff]
  constructor
  · rintro ⟨hhalt, hsettled⟩
    have hscan : g.scan .ready args = ((g.scan .ready args).1, .error .crash) :=
      Prod.ext rfl hhalt
    obtain ⟨before, a, rest, i₁, m, i₂, h, hargs, hbefore, hstep, hitems, hcrash⟩ :=
      scan_eq_error_iff.1 hscan
    rw [hitems] at hsettled
    rcases Halt.before_eq_crash_iff.1 hcrash.symm with rfl | ⟨⟨name, rfl⟩, hrest⟩
    · exact absurd (congrArg Prod.snd hstep) (step_ne_crash m a)
    · exact ⟨before, a, rest, i₁, m, i₂, name, hargs, hbefore, hstep, hsettled, hrest⟩
  · rintro ⟨before, a, rest, i₁, m, i₂, name, hargs, hbefore, hstep, hsettled, hrest⟩
    have hscan : g.scan .ready args = (i₁ ++ i₂, .error .crash) :=
      scan_eq_error_iff.2 ⟨before, a, rest, i₁, m, i₂, _, hargs, hbefore, hstep, rfl,
        (Halt.before_eq_crash_iff.2 (.inr ⟨⟨name, rfl⟩, hrest⟩)).symm⟩
    rw [hscan]
    exact ⟨rfl, hsettled⟩

end Grammar
end LaunchConfig
