import Doctest.Config.Notation
import Doctest.Files

/-!
# Data directories

What belongs to documents beside their text lies in a data directory: the configuration, and a
directory that snippets are written to and run in. A document uses the nearest data directory above
it.
-/

namespace Doctest.DataDirectory

def name : String := "markcheck-data"

/-- The file with the configuration. -/
def configName : String := "config.yaml"

/-- The directory for what snippets leave behind. -/
def outputName : String := "tmp"

/-- The nearest data directory above a document. -/
def find? (files : Files) (directory : Location) (document : Path) : Option Path := do
  let above ← (Path.absolute directory.path document).parent?
  (above.ancestors.map (Path.join · name)).find? (files.isDirectory directory)

/-- The built-in configuration, with the one of a data directory applied to it if there is one. -/
def config (files : Files) (directory : Location) (dataDirectory : Path) : Except Fault Config := do
  let path := Path.join dataDirectory configName
  if files.isFile directory path then
    match files.read directory path with
    | .error reason => .error (.described path (FileCause.unreadableConfig reason.text))
    | .ok text =>
      match ConfigPatch.parse text with
      | .error fault => .error (.described path fault.cause)
      | .ok patch => .ok (Config.builtin.apply patch)
  else .ok Config.builtin

end Doctest.DataDirectory
