import Corewise.Yaml.Plain
import Corewise.Yaml.Token
/-!
Events of YAML documents: scalars, and the starts and ends of collections, in the order of the
text. `Document.parse` reads the first document of a text as far as it is well formed.
-/

namespace Corewise.Yaml

inductive Event where
  | scalar (text : String) (isPlain : Bool)
  | sequenceStart | sequenceEnd
  | mappingStart | mappingEnd
  /-- All of a text without documents. -/
  | void
  deriving DecidableEq, Repr

/-- A scalar that is left out. -/
def Event.absent : Event := .scalar "" true

/-- A collection that is open, or a part of one, and where the collection started. -/
inductive Expectation where
  /-- An item of a block sequence, or its end. -/
  | blockItem (start : Mark)
  /-- An item of a sequence that is indented like the key before it, or anything else. -/
  | openItem
  | blockKey (start : Mark)
  | blockValue (start : Mark)
  | flowItem (start : Mark) (isFirst : Bool)
  /-- A key in a flow sequence, which makes its item a mapping. -/
  | pairKey
  | pairValue
  | pairEnd
  | flowKey (start : Mark) (isFirst : Bool)
  | flowValue (start : Mark)
  /-- The value of a key without an indicator, which has none. -/
  | flowNothing (start : Mark)

/-- An event, and what is expected after it. -/
structure EventStep where
  event : Event
  mark : Mark
  expected : List Expectation
  tokens : Tokens

namespace Expectation

/-- The event at the start of a node. Block collections may not stand in flow collections, and a
sequence without indentation may only stand in a mapping. -/
def node (isBlock allowsOpen : Bool) (outer : List Expectation) (ts : Tokens) :
    Except Fault EventStep := do
  let (t, rest) ← ts.next
  let otherwise : Fault :=
    ⟨.nodeContent, t.start, some (if isBlock then .blockNode else .flowNode, t.start)⟩
  match t.kind with
  | .scalar text isPlain => return ⟨.scalar text isPlain, t.start, outer, rest⟩
  | .flowSequenceStart => return ⟨.sequenceStart, t.start, .flowItem t.start true :: outer, rest⟩
  | .flowMappingStart => return ⟨.mappingStart, t.start, .flowKey t.start true :: outer, rest⟩
  | .blockEntry =>
    if allowsOpen then return ⟨.sequenceStart, t.start, .openItem :: outer, ts⟩
    else throw otherwise
  | .blockSequenceStart =>
    if isBlock then return ⟨.sequenceStart, t.start, .blockItem t.start :: outer, rest⟩
    else throw otherwise
  | .blockMappingStart =>
    if isBlock then return ⟨.mappingStart, t.start, .blockKey t.start :: outer, rest⟩
    else throw otherwise
  | _ => throw otherwise

/-- A node in a block, or a scalar left out at `place` where one of the `ends` follows. -/
def blockPart (allowsOpen : Bool) (ends : List TokenKind) (place : Option Mark)
    (outer : List Expectation) (ts : Tokens) : Except Fault EventStep := do
  let (t, _) ← ts.next
  if ends.contains t.kind then return ⟨.absent, place.getD t.start, outer, ts⟩
  else node true allowsOpen outer ts

/-- A node in a flow collection, or a scalar left out where one of the `ends` follows. -/
def flowPart (ends : List TokenKind) (outer : List Expectation) (ts : Tokens) :
    Except Fault EventStep := do
  let (t, _) ← ts.next
  if ends.contains t.kind then return ⟨.absent, t.start, outer, ts⟩
  else node false false outer ts

/-- The next event, where `outer` is expected after the innermost expectation. -/
def step (outer : List Expectation) (ts : Tokens) : Expectation → Except Fault EventStep
  | .blockItem start => do
    let (t, rest) ← ts.next
    match t.kind with
    | .blockEntry =>
      blockPart false [.blockEntry, .blockEnd] (some t.stop) (.blockItem start :: outer) rest
    | .blockEnd => return ⟨.sequenceEnd, t.start, outer, rest⟩
    | _ => throw ⟨.dash, t.start, some (.blockCollection, start)⟩
  | .openItem => do
    let (t, rest) ← ts.next
    if t.kind = .blockEntry then
      blockPart false [.blockEntry, .key, .value, .blockEnd] (some t.stop) (.openItem :: outer) rest
    else return ⟨.sequenceEnd, t.start, outer, ts⟩
  | .blockKey start => do
    let (t, rest) ← ts.next
    match t.kind with
    | .key => blockPart true [.key, .value, .blockEnd] (some t.stop) (.blockValue start :: outer) rest
    | .blockEnd => return ⟨.mappingEnd, t.start, outer, rest⟩
    | _ => throw ⟨.key, t.start, some (.blockMapping, start)⟩
  | .blockValue start => do
    let (t, rest) ← ts.next
    if t.kind = .value then
      blockPart true [.key, .value, .blockEnd] (some t.stop) (.blockKey start :: outer) rest
    else return ⟨.absent, t.start, .blockKey start :: outer, ts⟩
  | .flowItem start isFirst => do
    let (t, rest) ← ts.next
    if t.kind = .flowSequenceEnd then return ⟨.sequenceEnd, t.start, outer, rest⟩
    else
      if !isFirst && t.kind != .flowEntry then
        throw ⟨.flowSequenceEnd, t.start, some (.flowSequence, start)⟩
      let ts := if isFirst then ts else rest
      let (t, rest) ← ts.next
      let outer' := .flowItem start false :: outer
      match t.kind with
      | .flowSequenceEnd => return ⟨.sequenceEnd, t.start, outer, rest⟩
      | .key => return ⟨.mappingStart, t.start, .pairKey :: outer', rest⟩
      | _ => node false false outer' ts
  | .pairKey => do
    let (t, rest) ← ts.next
    -- A token that leaves the key out is taken with it.
    if [.value, .flowEntry, .flowSequenceEnd].contains t.kind then
      return ⟨.absent, t.stop, .pairValue :: outer, rest⟩
    else node false false (.pairValue :: outer) ts
  | .pairValue => do
    let (t, rest) ← ts.next
    if t.kind = .value then flowPart [.flowEntry, .flowSequenceEnd] (.pairEnd :: outer) rest
    else return ⟨.absent, t.start, .pairEnd :: outer, ts⟩
  | .pairEnd => do
    let (t, _) ← ts.next
    return ⟨.mappingEnd, t.start, outer, ts⟩
  | .flowKey start isFirst => do
    let (t, rest) ← ts.next
    if t.kind = .flowMappingEnd then return ⟨.mappingEnd, t.start, outer, rest⟩
    else
      if !isFirst && t.kind != .flowEntry then
        throw ⟨.flowMappingEnd, t.start, some (.flowMapping, start)⟩
      let ts := if isFirst then ts else rest
      let (t, rest) ← ts.next
      match t.kind with
      | .flowMappingEnd => return ⟨.mappingEnd, t.start, outer, rest⟩
      | .key => flowPart [.value, .flowEntry, .flowMappingEnd] (.flowValue start :: outer) rest
      | _ => node false false (.flowNothing start :: outer) ts
  | .flowValue start => do
    let (t, rest) ← ts.next
    let outer := .flowKey start false :: outer
    if t.kind = .value then flowPart [.flowEntry, .flowMappingEnd] outer rest
    else return ⟨.absent, t.start, outer, ts⟩
  | .flowNothing start => do
    let (t, _) ← ts.next
    return ⟨.absent, t.start, .flowKey start false :: outer, ts⟩

end Expectation

/-- Events of a document up to its end or to a fault. -/
structure Events where
  items : List (Event × Mark)
  fault : Option Fault

/-- The first document of a text, and whether nothing comes after it. -/
structure Document where
  events : Events
  isOnly : Bool

namespace Document

/-- Events up to the end of what is expected, given those so far, the newest first. After the root
comes the end of the document, which need not be marked. -/
def run : Nat → List (Event × Mark) → List Expectation → Tokens → Document
  | 0, events, _, _ => ⟨⟨events.reverse, none⟩, false⟩
  | fuel + 1, events, expected :: outer, ts =>
    match expected.step outer ts with
    | .error fault => ⟨⟨events.reverse, some fault⟩, false⟩
    | .ok next => run fuel ((next.event, next.mark) :: events) next.expected next.tokens
  | _ + 1, events, [], ts =>
    match ts.next with
    | .error fault => ⟨⟨events.reverse, some fault⟩, false⟩
    | .ok _ =>
      let isEnd (t : Token) : Bool := t.kind == .documentEnd
      ⟨⟨events.reverse, none⟩, (ts.items.dropWhile isEnd).isEmpty && ts.ending.isOk⟩

/-- The directives in front of a document. -/
def directives (version : Option (Nat × Nat)) : List Token → Except Fault (List Token)
  | [] => .ok []
  | t :: rest =>
    match t.kind with
    | .version major minor =>
      if version.isSome then .error ⟨.duplicateVersion, t.start, none⟩
      else if major ≠ 1 ∨ (minor ≠ 1 ∧ minor ≠ 2) then
        .error ⟨.incompatibleVersion, t.start, none⟩
      else directives (some (major, minor)) rest
    | _ => .ok (t :: rest)

/-- The start of a document and the event of its root. -/
def root (ts : Tokens) : Except Fault EventStep := do
  let (t, _) ← ts.next
  match t.kind with
  | .textEnd => return ⟨.void, t.start, [], ts⟩
  | .version .. | .documentStart =>
    let ts := { ts with items := ← directives none ts.items }
    let (t, rest) ← ts.next
    if t.kind = .documentStart then
      let (t, _) ← rest.next
      match t.kind with
      | .version .. | .documentStart | .documentEnd | .textEnd => return ⟨.absent, t.start, [], rest⟩
      | _ => Expectation.node true false [] rest
    else throw ⟨.documentStart, t.start, none⟩
  | _ => Expectation.node true false [] ts

def ofTokens (ts : Tokens) : Document :=
  match root ts with
  | .error fault => ⟨⟨[], some fault⟩, false⟩
  | .ok first =>
    run (4 * ts.items.length + 8) [(first.event, first.mark)] first.expected first.tokens

def parse (text : String) : Document := ofTokens (.scan text)

end Document

end Corewise.Yaml
