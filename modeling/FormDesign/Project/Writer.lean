import FormDesign.Output

/-!
# Writers

Generation does not touch any files. Finished files are handed to a writer, which decides whether
anything has to change. What it writes to is a state of its own choice.
-/

namespace FormDesign

/-- The failure to write a file. -/
structure WriteFault where
  path : String
  reason : String
  deriving DecidableEq

/-- The text shown to the user. -/
def WriteFault.message (f : WriteFault) : String :=
  "Unable to write '" ++ f.path ++ "': " ++ f.reason

/-- What a writer does with a file and its state `σ`. -/
abbrev Writer (σ : Type) : Type :=
  OutputFile → σ → Except WriteFault ResultCode × σ

end FormDesign
