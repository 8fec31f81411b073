import FormDesign.Project.Writer

/-!
# Dry runs

A dry run compares the files of a project with a copy of those that exist, and reports what a real
run would write. It writes nothing, so a path can come up more than once.
-/

namespace FormDesign

structure DryRun where
  /-- The files that exist, by path. Of two with one path the later one counts. -/
  existing : List (String × String)
  /-- The paths that a real run would write, in the order they came up. -/
  pending : List String
  deriving DecidableEq

namespace DryRun

/-- A dry run over some files. -/
def ofFiles (existing : List (String × String)) : DryRun :=
  { existing, pending := [] }

/-- The content of an existing file. -/
def content? (r : DryRun) (path : String) : Option String :=
  (r.existing.reverse.find? fun (p, _) => p == path).map Prod.snd

/-- Compares a file with what exists. -/
def write : Writer DryRun := fun file r =>
  if r.content? file.fullPath = some file.content then (.ok .alreadyExists, r)
  else (.ok .needsWriting, { r with pending := r.pending ++ [file.fullPath] })

end DryRun

end FormDesign
