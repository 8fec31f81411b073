/-!
# Target languages

The languages a form can be generated in. Four of them are source code; the fifth is the XML
resource format of the toolkit. A `Dialect` is one of the four.
-/

namespace FormDesign

/-- The languages of generated source code. -/
inductive Dialect
  | cpp
  | python
  | ruby
  | perl
  deriving DecidableEq

/-- A generation target. -/
inductive Language
  | source (d : Dialect)
  | resource
  deriving DecidableEq

namespace Dialect

def all : List Dialect := [.cpp, .python, .ruby, .perl]

/-- The name of the language in messages. -/
def name : Dialect → String
  | .cpp => "C++"
  | .python => "Python"
  | .ruby => "Ruby"
  | .perl => "Perl"

end Dialect

namespace Language

def all : List Language := Dialect.all.map source ++ [resource]

/-- The name of the language in messages. -/
def name : Language → String
  | .source d => d.name
  | .resource => "XRC"

/-- The name of the language in options. -/
def key : Language → String
  | .source .cpp => "cpp"
  | .source .python => "python"
  | .source .ruby => "ruby"
  | .source .perl => "perl"
  | .resource => "xrc"

/-- The language with the given name in options. -/
def ofKey? (s : String) : Option Language :=
  all.find? fun l => l.key == s

/-- The extension of the only file, or of the source file where there is a header too. -/
def extension : Language → String
  | .source .cpp => ".cpp"
  | .source .python => ".py"
  | .source .ruby => ".rb"
  | .source .perl => ".pm"
  | .resource => ".xrc"

/-- Languages that are interpreted at run time. -/
def isScripted : Language → Bool
  | .source .cpp | .resource => false
  | .source _ => true

end Language

end FormDesign
