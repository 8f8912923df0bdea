/-!
Places in YAML texts, and the faults that stop the reading of a text.
-/

namespace Corewise.Yaml

/-- A line and a column, both counted from zero. -/
structure Mark where
  line : Nat
  column : Nat
  deriving DecidableEq, Repr

namespace Mark

def start : Mark := ⟨0, 0⟩

/-- Where something is. The start of a text is not told. -/
def suffix (m : Mark) : String :=
  if m = start then ""
  else " at line " ++ toString (m.line + 1) ++ " column " ++ toString (m.column + 1)

end Mark

/-- What was being read when a fault was found. -/
inductive Activity where
  | simpleKey | nextToken
  | directive | versionDirective
  | blockScalar | quotedScalar | escape | plainScalar
  | blockNode | flowNode | blockCollection | blockMapping | flowSequence | flowMapping
  deriving DecidableEq, Repr

def Activity.text : Activity → String
  | simpleKey => "while scanning a simple key"
  | nextToken => "while scanning for the next token"
  | directive => "while scanning a directive"
  | versionDirective => "while scanning a %YAML directive"
  | blockScalar => "while scanning a block scalar"
  | quotedScalar => "while scanning a quoted scalar"
  | escape => "while parsing a quoted scalar"
  | plainScalar => "while scanning a plain scalar"
  | blockNode => "while parsing a block node"
  | flowNode => "while parsing a flow node"
  | blockCollection => "while parsing a block collection"
  | blockMapping => "while parsing a block mapping"
  | flowSequence => "while parsing a flow sequence"
  | flowMapping => "while parsing a flow mapping"

inductive Problem where
  /-- A character that no document may hold, and the number of bytes before it. -/
  | controlCharacter (offset : Nat)
  | noTokenStart
  | missingColon
  | misplacedEntry | misplacedKey | misplacedValue
  | directiveName | directiveCharacter | unknownDirective
  | versionNumber | longVersionNumber | versionCharacter
  | lineEnd
  | zeroIndentation | tabInIndentation | tabBeforeText
  | documentMarkInQuotes | endInQuotes
  | unknownEscape | hexadecimal | codePoint
  | colonInPlain
  | documentStart | duplicateVersion | incompatibleVersion
  | nodeContent | dash | key | flowSequenceEnd | flowMappingEnd
  deriving DecidableEq, Repr

def Problem.text : Problem → String
  | controlCharacter offset =>
    "control characters are not allowed" ++
      (if offset = 0 then "" else " at position " ++ toString offset)
  | noTokenStart => "found character that cannot start any token"
  | missingColon => "could not find expected ':'"
  | misplacedEntry => "block sequence entries are not allowed in this context"
  | misplacedKey => "mapping keys are not allowed in this context"
  | misplacedValue => "mapping values are not allowed in this context"
  | directiveName => "could not find expected directive name"
  | directiveCharacter => "found unexpected non-alphabetical character"
  | unknownDirective => "found unknown directive name"
  | versionNumber => "did not find expected version number"
  | longVersionNumber => "found extremely long version number"
  | versionCharacter => "did not find expected digit or '.' character"
  | lineEnd => "did not find expected comment or line break"
  | zeroIndentation => "found an indentation indicator equal to 0"
  | tabInIndentation => "found a tab character where an indentation space is expected"
  | tabBeforeText => "found a tab character that violates indentation"
  | documentMarkInQuotes => "found unexpected document indicator"
  | endInQuotes => "found unexpected end of stream"
  | unknownEscape => "found unknown escape character"
  | hexadecimal => "did not find expected hexadecimal number"
  | codePoint => "found invalid Unicode character escape code"
  | colonInPlain => "found unexpected ':'"
  | documentStart => "did not find expected <document start>"
  | duplicateVersion => "found duplicate %YAML directive"
  | incompatibleVersion => "found incompatible YAML document"
  | nodeContent => "did not find expected node content"
  | dash => "did not find expected '-' indicator"
  | key => "did not find expected key"
  | flowSequenceEnd => "did not find expected ',' or ']'"
  | flowMappingEnd => "did not find expected ',' or '\x7d'"

/-- A problem, where it is, and what was being read there with its start. -/
structure Fault where
  problem : Problem
  mark : Mark
  context : Option (Activity × Mark)
  deriving DecidableEq, Repr

/-- The start of what was being read is told where it is another place. -/
def Fault.message (f : Fault) : String :=
  f.problem.text ++ f.mark.suffix ++
    match f.context with
    | none => ""
    | some (activity, start) =>
      ", " ++ activity.text ++ (if start = f.mark then "" else start.suffix)

end Corewise.Yaml
