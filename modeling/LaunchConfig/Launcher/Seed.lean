import LaunchConfig.Configuration.Basic
import LaunchConfig.Launcher.Failure

/-!
# What a build starts from

Where the command line says nothing, a build runs in the working directory, and
the user home directory comes from the environment. A working directory that has
been removed has no path any more; then no build can start.

Results:

* `userHome?_of_override`: the variable of its own goes before `HOME`.
-/

namespace LaunchConfig

/-- The value of each environment variable that is set. -/
abbrev Environment := String → Option RawText

/-- The path of the working directory, or why it has none. -/
inductive WorkingDirectory where
  /-- The directory that the run started in. -/
  | known (path : RawText)
  /-- The system gives no path, and says why. -/
  | unknown (cause : String)
  deriving DecidableEq, Repr

/-- A path is that of a working directory that is known. -/
instance : Coe RawText WorkingDirectory := ⟨.known⟩

namespace Environment

/-- The value of a variable that is set and not empty. -/
def nonEmpty? (env : Environment) (name : String) : Option RawText :=
  (env name).filter fun v => !v.isEmpty

/-- The variable that sets the user home directory. -/
def userHomeVariable : String := "GRADLE_USER_HOME"

/-- The user home directory, as an entry of the home directory. -/
def userHomeEntry : String := ".gradle"

/-- The user home directory (`from_vars`): the one that is set, or else an entry of the home
    directory. -/
def userHome? (env : Environment) : Option RawText :=
  (env.nonEmpty? userHomeVariable).or
    ((env.nonEmpty? "HOME").map fun home => home.entry userHomeEntry)

/-- The configuration before the command line is applied, in a working directory that is
    known (`from_vars`, `seed_configuration`). -/
def seed (env : Environment) (cwd : RawText) : Configuration :=
  { projectDir := some cwd, userHomeDir := env.userHome? }

theorem userHome?_of_override {env : Environment} {home : RawText}
    (h : env.nonEmpty? userHomeVariable = some home) : env.userHome? = some home := by
  simp [userHome?, h]

/-- The configuration before the command line is applied, or why there is none (`from_env`). -/
def seedIn (env : Environment) : WorkingDirectory → Except Failure Configuration
  | .known cwd => .ok (env.seed cwd)
  | .unknown cause => .error ⟨"failed to get current directory", [cause]⟩

end Environment
end LaunchConfig
