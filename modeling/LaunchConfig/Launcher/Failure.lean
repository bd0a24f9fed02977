/-!
# Why a run fails

A failure says what could not be done, and it may have causes, each the cause of the one
before it. It is reported on one line with all of them.

Results:

* `message_of_text`: the report of a failure without causes;
* `message_cons`: a cause comes after a colon.
-/

namespace LaunchConfig

/-- What could not be done, and the chain of its causes. -/
structure Failure where
  text : String
  causes : List String := []
  deriving DecidableEq, Repr

namespace Failure

/-- A failure and its causes on one line (`error_message`). -/
def message (f : Failure) : String := ": ".intercalate (f.text :: f.causes)

@[simp] theorem message_of_text (text : String) : message ⟨text, []⟩ = text := rfl

theorem message_cons (text cause : String) (causes : List String) :
    message ⟨text, cause :: causes⟩ = text ++ ": " ++ message ⟨cause, causes⟩ := by
  rw [message, message, String.intercalate_cons_cons]

example : message ⟨"failed to get current directory", ["no such directory"]⟩
    = "failed to get current directory: no such directory" := by decide

end Failure
end LaunchConfig
