import FormDesign.Text.FilePath
import FormDesign.Text.Words

/-!
# Names of data arrays

The bytes of an embedded image become an array in the generated source. Its name is the file name
in snake case with the extension as the last word: `images/Save-As.png` becomes `save_as_png`.
-/

namespace FormDesign

/-- The name of the data array for a file. -/
def arrayName (path : String) : String :=
  let letters := ((Text.FilePath.stem? path).getD "").map fun c => if c.isAlphanum then c else ' '
  let words := Text.snakeCase (Text.trim letters)
  let name :=
    match Text.FilePath.extension? path with
    | some ext => words ++ "_" ++ Text.asciiLower ext
    | none => words
  if name = "" || Text.startsWhere name Char.isDigit then "img_" ++ name else name

end FormDesign
