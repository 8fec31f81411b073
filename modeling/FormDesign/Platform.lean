import FormDesign.Text.Split

/-!
# Platforms

The platforms a node may be confined to. A selector names them with bars between; one particular
selector stands for every platform and confines nothing.
-/

namespace FormDesign

inductive Platform
  | windows
  | unix
  | mac
  deriving DecidableEq

namespace Platform

def all : List Platform := [.windows, .unix, .mac]

/-- The name of the platform in selectors. -/
def name : Platform → String
  | .windows => "Windows"
  | .unix => "Unix"
  | .mac => "Mac"

def ofName? (s : String) : Option Platform :=
  all.find? fun p => p.name == s

/-- The selector that confines nothing. -/
def everywhere : String := "Windows|Unix|Mac"

/-- The platforms that a selector names, in its order. Unknown names are passed over. -/
def ofSelector (selector : String) : List Platform :=
  (Text.splitOn '|' selector).filterMap fun part => ofName? (Text.trim part)

/-- The preprocessor symbol that a C++ compiler defines. -/
def define : Platform → String
  | .windows => "__WINDOWS__"
  | .unix => "__UNIX__"
  | .mac => "__WXOSX__"

/-- The name that the Python bindings report for the platform. -/
def pythonName : Platform → String
  | .windows => "__WXMSW__"
  | .unix => "__WXGTK__"
  | .mac => "__WXMAC__"

/-- The pattern that the name of the operating system matches. -/
def osPattern : Platform → String
  | .windows => "mswin|mingw"
  | .unix => "linux|bsd"
  | .mac => "darwin"

end Platform

end FormDesign
