import LaunchConfig.Dict
import LaunchConfig.Text.Cut

/-!
# Properties

A property is given as `key=value`. The key ends at the first `=`; without one
the whole text is the key, and the value is empty.

Results:

* `ofText_text`: a property whose key holds no `=` is read back from its text;
* `not_mem_key`: no key that was read holds `=`;
* `putProperties_append`: two lists of properties may be put in one go.
-/

namespace LaunchConfig

/-- A key and its value. -/
structure Property where
  key : String
  value : String
  deriving DecidableEq, Repr

namespace Property

/-- Read `key=value`. -/
def ofText (text : String) : Property :=
  let (key, value?) := cutAt '=' text.toList
  ⟨String.ofList key, String.ofList (value?.getD [])⟩

/-- The property as it is given. -/
def text (p : Property) : String := p.key ++ "=" ++ p.value

theorem ofText_text {p : Property} (h : '=' ∉ p.key.toList) : ofText p.text = p := by
  have ht : p.text.toList = p.key.toList ++ '=' :: p.value.toList := by
    simp [text]
  simp [ofText, ht, cutAt_append h]

/-- A key holds no `=`. -/
theorem not_mem_key (text : String) : '=' ∉ (ofText text).key.toList := by
  simpa [ofText] using not_mem_cutAt_fst text.toList

end Property

/-- Put properties into a dictionary, in turn (`put_properties`). -/
def putProperties (d : Dict String) (texts : List String) : Dict String :=
  texts.foldl (fun d t => d.insert (Property.ofText t).key (Property.ofText t).value) d

@[simp] theorem putProperties_nil (d : Dict String) : putProperties d [] = d := rfl

@[simp] theorem putProperties_cons (d : Dict String) (t : String) (ts : List String) :
    putProperties d (t :: ts)
      = putProperties (d.insert (Property.ofText t).key (Property.ofText t).value) ts := rfl

theorem putProperties_append (d : Dict String) (ts us : List String) :
    putProperties d (ts ++ us) = putProperties (putProperties d ts) us :=
  List.foldl_append

end LaunchConfig
