import FormDesign.Language

/-!
# Output

The files that generation produces, and what became of them.
-/

namespace FormDesign

/-- A finished file, to be handed to a writer. -/
structure OutputFile where
  /-- The path without extension, relative to the directory of the output. -/
  path : String
  /-- The extension with its dot. -/
  extension : String
  content : String
  deriving DecidableEq

/-- The path with its extension. -/
def OutputFile.fullPath (f : OutputFile) : String :=
  f.path ++ f.extension

/-- What became of a form or a file. -/
inductive ResultCode
  | fail
  /-- The file has this content already. -/
  | alreadyExists
  | created
  /-- There is nothing to generate. -/
  | ignored
  /-- The content differs, but nothing was written yet. -/
  | needsWriting
  deriving DecidableEq

namespace ResultCode

def all : List ResultCode := [.fail, .alreadyExists, .created, .ignored, .needsWriting]

def name : ResultCode → String
  | .fail => "Fail"
  | .alreadyExists => "AlreadyExists"
  | .created => "Created"
  | .ignored => "Ignored"
  | .needsWriting => "NeedsWriting"

/-- The number that stands for the code. -/
def number : ResultCode → Int
  | .fail => -1
  | .alreadyExists => 0
  | .created => 1
  | .ignored => 2
  | .needsWriting => 3

def isFailure (c : ResultCode) : Bool := c == .fail

/-- Whether a file was written, or would have been. -/
def isUpdate (c : ResultCode) : Bool := c == .created || c == .needsWriting

end ResultCode

/-- What was generated for one form in one language. -/
structure FormOutput where
  className : String
  language : Language
  code : ResultCode
  files : List OutputFile
  /-- What the user should know, in the order it came up. -/
  warnings : List String
  deriving DecidableEq

/-- The output for a form that there is nothing to generate for. -/
def FormOutput.ignored (className : String) (language : Language) (warnings : List String) :
    FormOutput :=
  { className, language, code := .ignored, files := [], warnings }

end FormDesign
