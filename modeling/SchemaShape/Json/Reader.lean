import SchemaShape.Json.Token

/-! # Reading JSON

`Json.read` reads the value at the front of a text; what follows the value is ignored. A text that
does not start with a value is refused with the path of the place where reading stopped. Containers
may nest 127 deep.

Reading is a fold over the tokens. Its state holds the open containers and what may come next, so
the path of an error is the state's own: the value that was being read, its container for errors in
an array's punctuation or at a missing colon, and an unnamed member of its container where a key or
the end of an object was expected.
-/

namespace SchemaShape
set_option autoImplicit false

/-! ## Paths -/

/-- A step into a value that is being read. -/
inductive PathStep where
  | key (name : String)
  | index (position : Nat)
  /-- A member whose key was not read. -/
  | unnamed
  deriving DecidableEq, Repr

abbrev ReadPath := List PathStep

namespace PathStep

def text : PathStep → String
  | key name => name
  | index position => "[" ++ toString position ++ "]"
  | unnamed => "?"

/-- Positions stand in brackets without a point before them. -/
def separated : PathStep → String
  | index position => text (index position)
  | step => "." ++ step.text

end PathStep

/-- The steps joined by points; a point alone is the whole value. -/
def ReadPath.text : ReadPath → String
  | [] => "."
  | first :: rest => first.text ++ String.join (rest.map PathStep.separated)

namespace Json

/-! ## The state of a reading -/

/-- An open container: the items before the one being read, last first, or the members before the
one being read and its key. -/
inductive Frame where
  | items (done : List Json)
  | members (done : Members) (key : String)

/-- What the next token may be. -/
inductive Expecting where
  /-- A value, at the root or behind a colon. -/
  | value
  /-- An item, or the end of an array that has none. -/
  | firstItem
  /-- An item, behind a comma. -/
  | item
  /-- A key, or the end of an object that has no member. -/
  | firstKey
  /-- A key, behind a comma. -/
  | key
  | colon
  /-- A comma, or the end of the innermost container. -/
  | more

/-- Reading is over once the root value is complete. -/
inductive ReadState where
  | reading (frames : List Frame) (expecting : Expecting)
  | complete (value : Json)

def maxNesting : Nat := 127

namespace Frame

def step : Frame → PathStep
  | items done => .index done.length
  | members _ key => .key key

def path (frames : List Frame) : ReadPath :=
  (frames.map step).reverse

def containerPath (frames : List Frame) : ReadPath :=
  path (frames.drop 1)

def unnamedPath (frames : List Frame) : ReadPath :=
  containerPath frames ++ [.unnamed]

end Frame

namespace ReadState

/-- Puts a complete value into the innermost open container. -/
def put (value : Json) : List Frame → ReadState
  | [] => complete value
  | .items done :: outer => reading (.items (value :: done) :: outer) .more
  | .members done key :: outer => reading (.members (done.set key value) key :: outer) .more

def openContainer (frames : List Frame) (frame : Frame) (expecting : Expecting) :
    Except ReadPath ReadState :=
  if frames.length < maxNesting then .ok (reading (frame :: frames) expecting)
  else .error (Frame.path frames)

def beginValue (frames : List Frame) : Token → Except ReadPath ReadState
  | .scalar value => .ok (put value frames)
  | .text value => .ok (put (.string value) frames)
  | .openBracket => openContainer frames (.items []) .firstItem
  | .openBrace => openContainer frames (.members [] "") .firstKey
  | _ => .error (Frame.path frames)

def beginKey : List Frame → Token → Except ReadPath ReadState
  | .members done _ :: outer, .text key => .ok (reading (.members done key :: outer) .colon)
  | frames, _ => .error (Frame.unnamedPath frames)

/-- A comma or a closing bracket behind a value inside a container. -/
def continueContainer : List Frame → Token → Except ReadPath ReadState
  | .items done :: outer, .comma => .ok (reading (.items done :: outer) .item)
  | .items done :: outer, .closeBracket => .ok (put (.array done.reverse) outer)
  | .members done key :: outer, .comma => .ok (reading (.members done key :: outer) .key)
  | .members done _ :: outer, .closeBrace => .ok (put (.object done) outer)
  | .items done :: outer, _ => .error (Frame.containerPath (.items done :: outer))
  | frames, _ => .error (Frame.unnamedPath frames)

def step : ReadState → Token → Except ReadPath ReadState
  | complete value, _ => .ok (complete value)
  | reading frames .value, token => beginValue frames token
  | reading frames .firstItem, .closeBracket => .ok (put (.array []) (frames.drop 1))
  | reading frames .firstItem, token => beginValue frames token
  | reading frames .item, .closeBracket => .error (Frame.containerPath frames)
  | reading frames .item, token => beginValue frames token
  | reading frames .firstKey, .closeBrace => .ok (put (.object []) (frames.drop 1))
  | reading frames .firstKey, token => beginKey frames token
  | reading frames .key, token => beginKey frames token
  | reading frames .colon, .colon => .ok (reading frames .value)
  | reading frames .colon, _ => .error (Frame.containerPath frames)
  | reading frames .more, token => continueContainer frames token

/-- The value, if the text ends here. -/
def finish : ReadState → Except ReadPath Json
  | complete value => .ok value
  | reading frames .value => .error (Frame.path frames)
  | reading frames .firstKey => .error (Frame.unnamedPath frames)
  | reading frames .key => .error (Frame.unnamedPath frames)
  | reading (.members done key :: outer) .more =>
    .error (Frame.unnamedPath (.members done key :: outer))
  | reading frames _ => .error (Frame.containerPath frames)

end ReadState

/-! ## Reading -/

def read (text : String) : Except ReadPath Json := do
  (← (Token.scan text.toList).foldlM ReadState.step (.reading [] .value)).finish

end Json

end SchemaShape
