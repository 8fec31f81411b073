import FormDesign.Text.Split

/-!
# File paths

The last component of a slash-separated path, and its division into stem and extension. Trailing
slashes and components that name the current directory are skipped; a path that ends in the parent
directory has no file name. A dot that opens the name starts no extension.
-/

namespace FormDesign.Text.FilePath

/-- The components that a path walks through, the current directory left out. -/
def components (path : String) : List String :=
  (splitOn '/' path).filter fun part => part ≠ "" && part ≠ "."

/-- The last component, unless it is the parent directory. -/
def fileName? (path : String) : Option String :=
  match (components path).getLast? with
  | some ".." => none
  | last => last

/-- A file name divided at its last dot, unless that dot comes first. -/
def divide (fileName : String) : String × Option String :=
  match Chars.cutAt? '.' fileName.toList.reverse with
  | none => (fileName, none)
  | some (_, []) => (fileName, none)
  | some (ext, stem) => (String.ofList stem.reverse, some (String.ofList ext.reverse))

/-- The file name without its extension. -/
def stem? (path : String) : Option String :=
  (fileName? path).map fun name => (divide name).1

/-- What follows the last dot of the file name. -/
def extension? (path : String) : Option String :=
  fileName? path >>= fun name => (divide name).2

end FormDesign.Text.FilePath
