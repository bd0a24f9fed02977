import LaunchConfig.Arguments.Grammar
import LaunchConfig.Arguments.Token
import LaunchConfig.Arguments.UsageError

/-!
# Reading arguments from left to right

Arguments are read one by one. Between two of them only a `Mode` is remembered:
whether an option still awaits its value, and whether the options have ended.
Each argument yields items, or ends the reading with a `Halt`.

The report of an unknown long name is made from it and the arguments after it,
which are not read but have to be UTF-8. Where one of them is not, there is no
report, and reading ends in a crash.

Results:

* `scan_append`: reading a list that was cut in two is reading its first part and
  then, in the mode that was reached, its second;
* `before_eq_crash_iff`: the halts that arguments left unread turn into a crash;
* `scan_trailing`: after the end of the options every argument is positional.
-/

namespace LaunchConfig

/-- What arguments say: a positional argument, or one occurrence of an option. -/
inductive Item where
  | positional (text : RawText)
  | flag (o : OptionSpec)
  /-- A value in the same argument as its option. -/
  | attached (o : OptionSpec) (value : RawText)
  /-- A value in the argument after its option. -/
  | detached (o : OptionSpec) (value : RawText)
  /-- An option that takes a value and was given none. -/
  | bare (o : OptionSpec)
  deriving DecidableEq, Repr

namespace Item

/-- The option that occurs, if one does. -/
def option? : Item → Option OptionSpec
  | .positional _ => none
  | .flag o | .attached o _ | .detached o _ | .bare o => some o

/-- The text that is given, if there is one. -/
def text? : Item → Option RawText
  | .positional t | .attached _ t | .detached _ t => some t
  | .flag _ | .bare _ => none

/-- Is the item a positional argument? -/
def isPositional : Item → Bool
  | .positional _ => true
  | _ => false

/-- The text, if there is one, is UTF-8. -/
def readable (i : Item) : Bool := i.text?.all RawText.readable

end Item

/-- What has to be remembered between two arguments. -/
inductive Mode where
  | ready
  /-- The next argument may be the value of `o`. -/
  | awaiting (o : OptionSpec)
  /-- The options have ended. While no argument has followed, `o?` is the option
      that still awaited a value. -/
  | trailing (o? : Option OptionSpec)
  deriving DecidableEq, Repr

namespace Mode

/-- The option that awaits a value. -/
def awaited? : Mode → Option OptionSpec
  | .ready => none
  | .awaiting o => some o
  | .trailing o? => o?

/-- The occurrence of the option that awaits a value in vain. -/
def leftover (m : Mode) : List Item := m.awaited?.toList.map .bare

end Mode

/-- Items, and how reading goes on after them. -/
abbrev Yield := List Item × Except Halt Mode

namespace Halt

/-- What a halt comes to with `rest` left unread. -/
def before (h : Halt) (rest : List RawText) : Halt :=
  match h with
  | .usage (.unknownLong _) => if rest.all RawText.readable then h else .crash
  | _ => h

theorem before_of_ne {h : Halt} (hn : ∀ name, h ≠ .usage (.unknownLong name))
    (rest : List RawText) : h.before rest = h := by
  unfold before
  split
  · next name => exact absurd rfl (hn name)
  · rfl

theorem before_of_readable {rest : List RawText} (hr : rest.all RawText.readable = true)
    (h : Halt) : h.before rest = h := by
  unfold before
  split
  · rw [if_pos hr]
  · rfl

theorem before_eq_crash_iff {h : Halt} {rest : List RawText} :
    h.before rest = .crash ↔
      h = .crash ∨ (∃ name, h = .usage (.unknownLong name)) ∧ ∃ a ∈ rest, a.readable = false := by
  by_cases hn : ∃ name, h = .usage (.unknownLong name)
  · obtain ⟨name, rfl⟩ := hn
    simp [before]
  · rw [before_of_ne fun name hh => hn ⟨name, hh⟩]
    simp [hn]

end Halt

namespace Grammar

/-! ## One argument -/

/-- A value that is attached to a letter; one `=` may stand before it. -/
def attachedValue (t : RawText) : RawText :=
  match t.chars with
  | '=' :: rest => ⟨rest, t.junk⟩
  | _ => t

/-- A cluster of letters: flags, and at its end perhaps an option with its
    value. -/
def readCluster (g : Grammar) (junk : List UInt8) : List Char → Yield
  | [] =>
    if junk.isEmpty then ([], .ok .ready)
    else ([], .error (.usage (.unknownLetter (String.ofList (Utf8.lossy junk)))))
  | c :: rest =>
    match g.short? c with
    | none => ([], .error (.usage (.unknownLetter c.toString)))
    | some .help => ([], .error .help)
    | some .version => ([], .error .version)
    | some (.option o) =>
      if o.takesValue then
        if rest.isEmpty && junk.isEmpty then ([], .ok (.awaiting o))
        else ([.attached o (attachedValue ⟨rest, junk⟩)], .ok .ready)
      else
        let (items, next) := g.readCluster junk rest
        (.flag o :: items, next)

/-- What a readable long name stands for. -/
def longNamed? (g : Grammar) (name : RawText) : Option Named :=
  if name.readable then g.long? name.text else none

/-- A long name, with the value that is attached to it. -/
def readLong (g : Grammar) (name : RawText) (value? : Option RawText) : Yield :=
  match g.longNamed? name with
  | none => ([], .error (.usage (.unknownLong name.lossy)))
  | some n =>
    match value?, n with
    | some v, .option o =>
      if o.takesValue then ([.attached o v], .ok .ready)
      else ([], .error (.usage (.unexpectedValue v.lossy o)))
    | some v, n => ([], .error (.usage (.unexpectedValue v.lossy n.spec)))
    | none, .option o =>
      if o.takesValue then ([], .ok (.awaiting o)) else ([.flag o], .ok .ready)
    | none, .help => ([], .error .help)
    | none, .version => ([], .error .version)

/-- An argument that is not the value of an option before it. -/
def readToken (g : Grammar) (a : RawText) : Yield :=
  match Token.ofRaw a with
  | .escape => ([], .ok (.trailing none))
  | .long name value? => g.readLong name value?
  | .cluster letters => g.readCluster letters.junk letters.chars
  | .plain => ([.positional a], .ok .ready)

/-- One argument. A value is not taken from an argument that begins with `-`,
    unless that is all there is of it. -/
def step (g : Grammar) : Mode → RawText → Yield
  | .ready, a => g.readToken a
  | .awaiting o, a =>
    match Token.ofRaw a with
    | .plain => ([.detached o a], .ok .ready)
    | .escape => ([], .ok (.trailing (some o)))
    | _ =>
      let (items, next) := g.readToken a
      (.bare o :: items, next)
  | .trailing o?, a => ((Mode.trailing o?).leftover ++ [.positional a], .ok (.trailing none))

/-! ## All arguments -/

/-- Read arguments in turn, as far as they can be read. -/
def scan (g : Grammar) (m : Mode) : List RawText → Yield
  | [] => ([], .ok m)
  | a :: rest =>
    match g.step m a with
    | (items, .error halt) => (items, .error (halt.before rest))
    | (items, .ok m') =>
      let (items', next) := g.scan m' rest
      (items ++ items', next)

theorem scan_cons_ok {g : Grammar} {m m' : Mode} {a : RawText} {items : List Item}
    (h : g.step m a = (items, .ok m')) (rest : List RawText) :
    g.scan m (a :: rest) = (items ++ (g.scan m' rest).1, (g.scan m' rest).2) := by
  simp [scan, h]

theorem scan_cons_error {g : Grammar} {m : Mode} {a : RawText} {items : List Item} {halt : Halt}
    (h : g.step m a = (items, .error halt)) (rest : List RawText) :
    g.scan m (a :: rest) = (items, .error (halt.before rest)) := by
  simp [scan, h]

/-- What is read of a list that begins with arguments that can be read. -/
theorem scan_append {g : Grammar} {m m' : Mode} {as : List RawText} {items : List Item}
    (h : g.scan m as = (items, .ok m')) (bs : List RawText) :
    g.scan m (as ++ bs) = (items ++ (g.scan m' bs).1, (g.scan m' bs).2) := by
  induction as generalizing m items with
  | nil =>
    obtain ⟨rfl, h⟩ := Prod.mk.inj h
    cases h
    simp
  | cons a as ih =>
    rw [List.cons_append]
    rcases hs : g.step m a with ⟨items₁, halt | m₁⟩
    · rw [scan_cons_error hs] at h
      cases (Prod.mk.inj h).2
    · rw [scan_cons_ok hs] at h ⊢
      obtain ⟨rfl, hnext⟩ := Prod.mk.inj h
      rw [ih (Prod.ext rfl hnext), List.append_assoc]

/-- After the end of the options every argument is positional. -/
theorem scan_trailing (g : Grammar) (as : List RawText) :
    g.scan (.trailing none) as = (as.map .positional, .ok (.trailing none)) := by
  induction as with
  | nil => rfl
  | cons a as ih =>
    have hs : g.step (.trailing none) a = ([.positional a], .ok (.trailing none)) := rfl
    rw [scan_cons_ok hs, ih]
    rfl

end Grammar
end LaunchConfig
