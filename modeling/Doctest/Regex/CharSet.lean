import Doctest.Text.Blank
import Doctest.Unicode.CaseFold
import Doctest.Unicode.Category
import Doctest.Unicode.Script

/-!
# Sets of characters

The character classes of a pattern, as expressions. `CharSet.mem` is their meaning.
-/

namespace Doctest.Regex

/-- A set of characters. -/
inductive CharSet
  | none
  | any
  | range (lo hi : Char)
  /-- Decimal digits of any script. -/
  | digit
  /-- The Unicode blanks. -/
  | blank
  /-- Word characters of any script. -/
  | word
  /-- One general category. -/
  | category (k : Unicode.Category)
  /-- All general categories of a group, by its letter. -/
  | categories (group : Char)
  | script (ranges : List (Nat × Nat))
  | union (a b : CharSet)
  | inter (a b : CharSet)
  | diff (a b : CharSet)
  | symmDiff (a b : CharSet)
  | compl (a : CharSet)
  /-- All characters that are the same as a member without regard to case. -/
  | folded (a : CharSet)
  /-- All characters that are the same as a member without regard to the case of ASCII letters. -/
  | asciiFolded (a : CharSet)
  deriving Inhabited

namespace CharSet

/-- An ASCII letter in its other case. -/
def swapAsciiCase (c : Char) : Char := if c.isUpper then c.toLower else c.toUpper

/-- Whether a character belongs to the set. -/
def mem : CharSet → Char → Bool
  | .none, _ => false
  | .any, _ => true
  | .range lo hi, c => lo ≤ c && c ≤ hi
  | .digit, c => Unicode.isDecimalNumber c
  | .blank, c => Text.isBlank c
  | .word, c => Unicode.isWordChar c
  | .category k, c => Unicode.categoryOf c == k
  | .categories group, c => (Unicode.categoryOf c).group == group
  | .script ranges, c => ranges.any fun (a, b) => a ≤ c.toNat && c.toNat ≤ b
  | .union a b, c => a.mem c || b.mem c
  | .inter a b, c => a.mem c && b.mem c
  | .diff a b, c => a.mem c && !b.mem c
  | .symmDiff a b, c => a.mem c != b.mem c
  | .compl a, c => !a.mem c
  | .folded a, c => (Unicode.orbit c.toNat).any fun n => a.mem (Char.ofNat n)
  | .asciiFolded a, c => a.mem c || a.mem (swapAsciiCase c)

/-- The set of one character. -/
def single (c : Char) : CharSet := .range c c

def unions (sets : List CharSet) : CharSet := sets.foldl .union .none

/-- The named classes of ASCII characters. -/
def ascii? : String → Option CharSet
  | "alnum" => some (unions [.range '0' '9', .range 'A' 'Z', .range 'a' 'z'])
  | "alpha" => some (unions [.range 'A' 'Z', .range 'a' 'z'])
  | "ascii" => some (.range '\x00' '\x7f')
  | "blank" => some (unions [single '\t', single ' '])
  | "cntrl" => some (unions [.range '\x00' '\x1f', single '\x7f'])
  | "digit" => some (.range '0' '9')
  | "graph" => some (.range '!' '~')
  | "lower" => some (.range 'a' 'z')
  | "print" => some (.range ' ' '~')
  | "punct" =>
    some (unions [.range '!' '/', .range ':' '@', .range '[' '\x60', .range '\x7b' '~'])
  | "space" => some (unions [.range '\t' '\r', single ' '])
  | "upper" => some (.range 'A' 'Z')
  | "word" => some (unions [.range '0' '9', .range 'A' 'Z', single '_', .range 'a' 'z'])
  | "xdigit" => some (unions [.range '0' '9', .range 'A' 'F', .range 'a' 'f'])
  | _ => Option.none

/-- The long names of general categories and their groups, without marks and in lower case. -/
def categoryNames : List (String × CharSet) := [
  ("letter", .categories 'L'), ("l", .categories 'L'),
  ("casedletter", unions [.category .lu, .category .ll, .category .lt]),
  ("lc", unions [.category .lu, .category .ll, .category .lt]),
  ("uppercaseletter", .category .lu), ("lu", .category .lu),
  ("lowercaseletter", .category .ll), ("ll", .category .ll),
  ("titlecaseletter", .category .lt), ("lt", .category .lt),
  ("modifierletter", .category .lm), ("lm", .category .lm),
  ("otherletter", .category .lo), ("lo", .category .lo),
  ("mark", .categories 'M'), ("m", .categories 'M'), ("combiningmark", .categories 'M'),
  ("nonspacingmark", .category .mn), ("mn", .category .mn),
  ("spacingmark", .category .mc), ("mc", .category .mc),
  ("enclosingmark", .category .me), ("me", .category .me),
  ("number", .categories 'N'), ("n", .categories 'N'),
  ("decimalnumber", .category .nd), ("nd", .category .nd), ("digit", .category .nd),
  ("letternumber", .category .nl), ("nl", .category .nl),
  ("othernumber", .category .no), ("no", .category .no),
  ("punctuation", .categories 'P'), ("p", .categories 'P'), ("punct", .categories 'P'),
  ("connectorpunctuation", .category .pc), ("pc", .category .pc),
  ("dashpunctuation", .category .pd), ("pd", .category .pd),
  ("openpunctuation", .category .ps), ("ps", .category .ps),
  ("closepunctuation", .category .pe), ("pe", .category .pe),
  ("initialpunctuation", .category .pi), ("pi", .category .pi),
  ("finalpunctuation", .category .pf), ("pf", .category .pf),
  ("otherpunctuation", .category .po), ("po", .category .po),
  ("symbol", .categories 'S'), ("s", .categories 'S'),
  ("mathsymbol", .category .sm), ("sm", .category .sm),
  ("currencysymbol", .category .sc), ("sc", .category .sc),
  ("modifiersymbol", .category .sk), ("sk", .category .sk),
  ("othersymbol", .category .so), ("so", .category .so),
  ("separator", .categories 'Z'), ("z", .categories 'Z'),
  ("spaceseparator", .category .zs), ("zs", .category .zs),
  ("lineseparator", .category .zl), ("zl", .category .zl),
  ("paragraphseparator", .category .zp), ("zp", .category .zp),
  ("other", .categories 'C'), ("c", .categories 'C'),
  ("control", .category .cc), ("cc", .category .cc), ("cntrl", .category .cc),
  ("format", .category .cf), ("cf", .category .cf),
  ("privateuse", .category .co), ("co", .category .co),
  ("unassigned", .category .cn), ("cn", .category .cn),
  ("any", .any), ("assigned", .compl (.category .cn)), ("ascii", .range '\x00' '\x7f'),
  ("whitespace", .blank), ("wspace", .blank), ("space", .blank),
  ("alphabetic", .diff .word (unions [.category .mn, .category .nd, .category .pc,
    .category .me])), ("alpha", .diff .word (unions [.category .mn, .category .nd,
    .category .pc, .category .me])),
  ("uppercase", .category .lu), ("upper", .category .lu),
  ("lowercase", .category .ll), ("lower", .category .ll)]

/-- A property's name with blanks, hyphens and underscores left out and in lower case. -/
def looseName (cs : List Char) : String :=
  String.ofList ((cs.filter fun c => c != ' ' && c != '-' && c != '_').map Char.toLower)

/-- The set of the characters with a Unicode property, by its name or by `name=value`. -/
def property? (cs : List Char) : Option CharSet :=
  let byName (name : String) : Option CharSet :=
    (categoryNames.lookup name).or ((Unicode.script? name).map .script)
  let cut := cs.takeWhile fun c => c != '=' && c != ':'
  if cut.length < cs.length then
    let key := looseName (if cut.getLast? = some '!' then cut.dropLast else cut)
    let set := match key with
      | "gc" | "generalcategory" => categoryNames.lookup (looseName (cs.drop (cut.length + 1)))
      | "sc" | "script" | "scx" | "scriptextensions" =>
        (Unicode.script? (looseName (cs.drop (cut.length + 1)))).map .script
      | _ => Option.none
    if cut.getLast? = some '!' then set.map .compl else set
  else
    let name := looseName cs
    match byName name with
    | some set => some set
    | .none => if name.startsWith "is" then byName (looseName (name.toList.drop 2)) else .none

/-- About how many steps of a program the set takes: sets that reach far beyond ASCII take many. -/
def weight : CharSet → Nat
  | .none | .range _ _ => 1
  | .any => 12
  | .digit => 150
  | .blank => 12
  | .word | .category _ | .categories _ => 1500
  | .script ranges => 6 * ranges.length
  | .union a b | .inter a b | .diff a b | .symmDiff a b => a.weight + b.weight
  | .compl a => a.weight + 12
  | .folded a | .asciiFolded a => a.weight + 1

end CharSet

end Doctest.Regex
