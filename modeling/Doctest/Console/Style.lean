/-!
# Styles

Status lines stand out by colours and bold letters, unless that is turned off.
-/

namespace Doctest

/-- How text is set off. -/
inductive Style
  | plain
  | coloured
  deriving DecidableEq, Repr

namespace Style

/-- The text between the code that turns a rendition on and the one that turns all off. -/
def render (code : String) (text : String) : Style → String
  | .plain => text
  | .coloured => s!"\x1b[{code}m{text}\x1b[0m"

def bold (text : String) (style : Style) : String := style.render "1" text
def red (text : String) (style : Style) : String := style.render "31" text
def green (text : String) (style : Style) : String := style.render "32" text

end Style

end Doctest
