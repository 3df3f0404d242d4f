import Doctest.Text.Line
import Doctest.Text.Quoted

/-!
# What can be wrong with a document

One constructor for each way in which a directive, an attribute, a configuration or a reference can
be wrong, grouped by the part of a document that is wrong. `Cause.message` is the only place where
their wording is fixed.
-/

namespace Doctest

open Text (quoteText quoteChar)

/-- Names in backticks, with commas between them. -/
def codeList (names : List String) : String :=
  ", ".intercalate (names.map fun n => s!"`{n}`")

/-- What can be wrong with the first line of a directive and with the use of attributes. -/
inductive DirectiveCause
  | unexpectedCharacter (c : Char)
  | unknownBodyLabel (key : String)
  | bodyLabelNotLast
  | unquotedValue (key : String)
  | unterminatedValue
  | valueNotSeparated (key : String)
  | strayCharacter (c : Char) (key : String)
  | duplicateAttribute (key : String)
  | textWithoutBodyLabel
  | missingValue (key : String)
  | unwantedValue (key : String)
  | attributesNotAllowed (kind : String) (keys : List String)
  | unterminatedDirective
  deriving DecidableEq, Repr

def DirectiveCause.message : DirectiveCause → String
  | .unexpectedCharacter c =>
    let shown := quoteChar c
    s!"Unexpected character {shown}, expected an attribute"
  | .unknownBodyLabel key => s!"Unknown body label `{key}:`"
  | .bodyLabelNotLast => "A body label must be the last item on the first line"
  | .unquotedValue key => s!"Expected a double-quoted value after `{key}=`"
  | .unterminatedValue => "Unterminated quoted value"
  | .valueNotSeparated key => s!"Expected whitespace after the value of `{key}`"
  | .strayCharacter c key =>
    let shown := quoteChar c
    s!"Unexpected character {shown} after `{key}`"
  | .duplicateAttribute key => s!"Duplicate attribute `{key}`"
  | .textWithoutBodyLabel =>
    "Text after the first line of a directive requires a body label such as `body:`"
  | .missingValue key => s!"Attribute `{key}` needs a value: {key}=\"...\""
  | .unwantedValue key => s!"Attribute `{key}` must not have a value"
  | .attributesNotAllowed kind keys =>
    let names := codeList keys
    s!"Attributes not allowed for {kind}: {names}"
  | .unterminatedDirective => "Unterminated directive: missing `-->`"

/-- What can be wrong with the notations that name lines and edit them. -/
inductive LocatorCause
  | expectedCommaOrRange
  | expectedComma
  | unterminatedFragment
  | missingDigits
  | numberTooLarge
  | numberZero
  | expectedLocator
  | expectedCondition
  | fragmentNotFound (locator : String)
  | noSuchLine (locator : String) (count : Nat)
  | reversedRange (range : String) (first last : Nat)
  | groupCount (conditions groups : Nat)
  | expectedSubstitution
  | missingSlash
  | unsupportedFlag (c : Char)
  | invalidPattern (key : String)
  deriving DecidableEq, Repr

def LocatorCause.message : LocatorCause → String
  | .expectedCommaOrRange => "Expected `,` or `..`"
  | .expectedComma => "Expected `,`"
  | .unterminatedFragment => "Unterminated text fragment"
  | .missingDigits => "Expected digits after `-`"
  | .numberTooLarge => "Line number is too large"
  | .numberZero => "Line numbers start at 1 (use -1 for the last line)"
  | .expectedLocator => "Expected a line number or a quoted text fragment"
  | .expectedCondition => "Expected `before:` or `after:`"
  | .fragmentNotFound locator => s!"No line contains the text fragment {locator}"
  | .noSuchLine locator count => s!"Line {locator} does not exist (there are {count} lines)"
  | .reversedRange range first last =>
    s!"Range {range} starts at line {first} but ends at line {last}"
  | .groupCount conditions groups =>
    s!"Number of insertion conditions ({conditions}) must match number of line groups in the body ({groups})"
  | .expectedSubstitution => "Expected `/search/replace/flags`"
  | .missingSlash => "Missing closing `/`"
  | .unsupportedFlag c =>
    let shown := quoteChar c
    s!"Unsupported flag {shown} (supported: g, i, y)"
  | .invalidPattern key => s!"Invalid regular expression in `{key}`: <regex error>"

/-- What can be wrong with a configuration text and with the languages that it defines. -/
inductive ConfigCause
  | unreadable
  | schema (path : String) (problem : String)
  | extendsCycle (chain : List String)
  | extendsWithoutCommands (lang parent : String)
  | extendsUnknown (lang parent : String)
  deriving DecidableEq, Repr

def ConfigCause.message : ConfigCause → String
  | .unreadable => "Invalid configuration: <yaml error>"
  | .schema "" problem => s!"Invalid configuration: {problem}"
  | .schema path problem => s!"Invalid configuration: {path}: {problem}"
  | .extendsCycle chain =>
    let steps := " → ".intercalate chain
    s!"Cycle in `extends` of language definitions: {steps}"
  | .extendsWithoutCommands lang parent =>
    s!"Language `{lang}` extends `{parent}`, which does not define commands"
  | .extendsUnknown lang parent => s!"Language `{lang}` extends unknown language `{parent}`"

/-- What can be wrong with the combination of a directive's attributes and with the small formats
of their values. -/
inductive DeclarationCause
  | eachWithLineModId
  | labelNotAllowed (label key : String)
  | emptyLineModId
  | atWithoutInsert
  | separatorCount (found : Nat)
  | insertNotAllowed
  | insertWithoutAt
  | runningModes (keys : List String)
  | applyToBodyWith (sources : List String)
  | sequenceFormat (text : String)
  | sequencePosition (position total : Nat)
  | externalFormat (item key : String)
  | externalWithoutFile (item key : String)
  | exitStatusFormat (text : String)
  | streamFormat (key text : String)
  | streamEmptyId (key text : String)
  deriving DecidableEq, Repr

def DeclarationCause.message : DeclarationCause → String
  | .eachWithLineModId => "`each` and `lineModId` can't be used together"
  | .labelNotAllowed label key => s!"Body label `{label}` is not allowed together with `{key}`"
  | .emptyLineModId => "`lineModId` must not be empty"
  | .atWithoutInsert => "Attribute `at` is only allowed with the body label `insert:`"
  | .separatorCount found => s!"Body of `around:` needs exactly one `•••` line, found {found}"
  | .insertNotAllowed =>
    "`insert:` is only allowed for snippets and for line mods with `lineModId`"
  | .insertWithoutAt => "Body label `insert:` requires the attribute `at`"
  | .runningModes keys =>
    let names := codeList keys
    s!"At most one running mode attribute is allowed, found {names}"
  | .applyToBodyWith sources =>
    let names := codeList sources
    s!"`applyToBody` can't be combined with {names}"
  | .sequenceFormat text =>
    let shown := quoteText text
    s!"Invalid `sequence` value {shown}, expected `pos/total` such as `1/3`"
  | .sequencePosition position total =>
    s!"Sequence position {position} is outside 1..={total}"
  | .externalFormat item key =>
    let shown := quoteText item
    s!"Invalid item {shown} in `{key}`, expected `id>fileName` or `>fileName`"
  | .externalWithoutFile item key =>
    let shown := quoteText item
    s!"Missing file name in item {shown} of `{key}`"
  | .exitStatusFormat text =>
    let shown := quoteText text
    s!"Invalid `exitStatus` value {shown}, expected an integer or `nonzero`"
  | .streamFormat key text =>
    let shown := quoteText text
    s!"Invalid `{key}` value {shown}, expected `|lineModId=snippetId`"
  | .streamEmptyId key text =>
    let shown := quoteText text
    s!"Empty ID in `{key}` value {shown}"

/-- What can be wrong with the order of a document's parts and with its IDs. Sequence numbers are
given as written, such as `1/3`. -/
inductive DocumentCause
  | noOpenSequence (found : String)
  | sequenceNumber (expected found : String)
  | sequenceNumberMissing (expected : String)
  | sequenceIncomplete (found total : Nat)
  | noCodeBlock
  | duplicateSnippetId (id : String) (first second : Nat)
  | duplicateLineModId (id : String) (first second : Nat)
  deriving DecidableEq, Repr

def DocumentCause.message : DocumentCause → String
  | .noOpenSequence found => s!"Expected sequence position 1, found {found} (no sequence is open)"
  | .sequenceNumber expected found => s!"Expected sequence number {expected}, found {found}"
  | .sequenceNumberMissing expected =>
    s!"Expected sequence number {expected}, found a snippet without `sequence`"
  | .sequenceIncomplete found total => s!"Incomplete sequence: found {found} of {total} elements"
  | .noCodeBlock => "Snippet directive is not followed by a code block"
  | .duplicateSnippetId id first second =>
    s!"Duplicate snippet ID `{id}`: lines {first} and {second}"
  | .duplicateLineModId id first second =>
    s!"Duplicate `lineModId` `{id}`: lines {first} and {second}"

/-- What can go wrong when a snippet's lines are put together or the snippet is run. -/
inductive RunCause
  | includeCycle (path : List String)
  | unknownSnippet (id key : String)
  | snippetExpected (key id : String)
  | unknownLineMod (id key : String)
  | lineModExpected (key id : String)
  | unknownTranslator (key lang : String)
  | unknownLanguage (lang : String)
  | noFileName (lang : String)
  | unreadableFile (path reason : String)
  | unusableDirectory (directory reason : String)
  deriving DecidableEq, Repr

def RunCause.message : RunCause → String
  | .includeCycle path =>
    let steps := " → ".intercalate path
    s!"Cycle in includes: {steps}"
  | .unknownSnippet id key => s!"Unknown snippet ID `{id}` in `{key}`"
  | .snippetExpected key id => s!"`{key}` refers to a line mod, expected a snippet ID: `{id}`"
  | .unknownLineMod id key => s!"Unknown `lineModId` `{id}` in `{key}`"
  | .lineModExpected key id => s!"`{key}` refers to a snippet, expected a `lineModId`: `{id}`"
  | .unknownTranslator key lang => s!"Unknown translator `{key}` (language `{lang}`)"
  | .unknownLanguage lang => s!"Unknown language `{lang}`: no definition in the configuration"
  | .noFileName lang =>
    s!"Language `{lang}` defines neither `defaultFileName` nor `runFileName`"
  | .unreadableFile path reason => s!"Can't read file `{path}`: {reason}"
  | .unusableDirectory directory reason =>
    s!"Can't use markcheck directory `{directory}`: {reason}"

/-- Why a file given on the command line could not be checked. -/
inductive FileCause
  | unreadable (reason : String)
  | noDataDirectory
  | unreadableConfig (reason : String)
  deriving DecidableEq, Repr

def FileCause.message : FileCause → String
  | .unreadable reason => s!"Can't read file: {reason}"
  | .noDataDirectory => "No `markcheck-data` directory found next to the file or in its ancestors"
  | .unreadableConfig reason => s!"Can't read config file: {reason}"

/-- What is wrong, or a statement of it in words. -/
inductive Cause
  | directive (cause : DirectiveCause)
  | locator (cause : LocatorCause)
  | config (cause : ConfigCause)
  | declaration (cause : DeclarationCause)
  | document (cause : DocumentCause)
  | run (cause : RunCause)
  | file (cause : FileCause)
  | stated (text : String)
  deriving DecidableEq, Repr

instance : Coe DirectiveCause Cause := ⟨.directive⟩
instance : Coe LocatorCause Cause := ⟨.locator⟩
instance : Coe ConfigCause Cause := ⟨.config⟩
instance : Coe DeclarationCause Cause := ⟨.declaration⟩
instance : Coe DocumentCause Cause := ⟨.document⟩
instance : Coe RunCause Cause := ⟨.run⟩
instance : Coe FileCause Cause := ⟨.file⟩

/-- The wording of a cause. -/
def Cause.message : Cause → String
  | .directive cause => cause.message
  | .locator cause => cause.message
  | .config cause => cause.message
  | .declaration cause => cause.message
  | .document cause => cause.message
  | .run cause => cause.message
  | .file cause => cause.message
  | .stated text => text

end Doctest
