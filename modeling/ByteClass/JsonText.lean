import ByteClass.Numeral

/-!
# JSON texts in two layouts

A JSON value is written as a sequence of tokens.  The compact layout puts the
tokens side by side.  The indented layout puts a gap in front of each token but
the first: a line break and two spaces for each open bracket behind an opening
bracket or a comma and in front of a closing bracket, and one space behind a
colon.  A bracket that is closed at once has no gap inside.
-/

namespace ByteClass

inductive JsonValue
  | null
  | number (value : Nat)
  | string (text : String)
  | array (elements : List JsonValue)
  | object (members : List (String × JsonValue))

inductive JsonToken
  | openArray
  | closeArray
  | openObject
  | closeObject
  | comma
  | colon
  | null
  | number (value : Nat)
  | string (text : String)
  deriving DecidableEq

/-- What stands for a character between the quotes of a JSON string. -/
def jsonCharacter (char : Char) : List Char :=
  match char with
  | '\"' => ['\\', '\"']
  | '\\' => ['\\', '\\']
  | '\x08' => ['\\', 'b']
  | '\x0c' => ['\\', 'f']
  | '\n' => ['\\', 'n']
  | '\r' => ['\\', 'r']
  | '\t' => ['\\', 't']
  | _ =>
      if char.toNat < 0x20 then
        ['\\', 'u'] ++ (Nat.toDigits 16 char.toNat).leftpad 4 '0'
      else
        [char]

namespace JsonToken

def text : JsonToken → String
  | openArray => "["
  | closeArray => "]"
  | openObject => "\x7b"
  | closeObject => "\x7d"
  | comma => ","
  | colon => ":"
  | null => "null"
  | number value => Numeral.inBase 10 value
  | string text =>
      String.ofList ('\"' :: (text.toList.flatMap jsonCharacter ++ ['\"']))

def opens : JsonToken → Bool
  | openArray | openObject => true
  | _ => false

def closes : JsonToken → Bool
  | closeArray | closeObject => true
  | _ => false

/-- The number of open brackets behind a token. -/
def depthAfter (depth : Nat) (token : JsonToken) : Nat :=
  if token.opens then depth + 1 else if token.closes then depth - 1 else depth

def lineBreak (depth : Nat) : String :=
  String.ofList ('\n' :: List.replicate (2 * depth) ' ')

/-- The gap between two tokens with this many brackets open between them. -/
def gap (depth : Nat) (before after : JsonToken) : String :=
  if before.opens && after.closes then
    ""
  else if after.closes then
    lineBreak (depth - 1)
  else if before.opens || before = comma then
    lineBreak depth
  else if before = colon then
    " "
  else
    ""

/-- Every token behind the first with its gap in front of it. -/
def indentedRest (depth : Nat) (before : JsonToken) : List JsonToken → List String
  | [] => []
  | token :: tokens =>
      gap depth before token :: token.text ::
        indentedRest (depthAfter depth token) token tokens

def indented : List JsonToken → List String
  | [] => []
  | token :: tokens =>
      token.text :: indentedRest (depthAfter 0 token) token tokens

end JsonToken

mutual

def JsonValue.tokens : JsonValue → List JsonToken
  | .null => [.null]
  | .number value => [.number value]
  | .string text => [.string text]
  | .array elements => .openArray :: (elementTokens elements ++ [.closeArray])
  | .object members => .openObject :: (memberTokens members ++ [.closeObject])

/-- The elements of an array, separated by commas. -/
def elementTokens : List JsonValue → List JsonToken
  | [] => []
  | [element] => element.tokens
  | element :: elements => element.tokens ++ .comma :: elementTokens elements

/-- The members of an object, separated by commas. -/
def memberTokens : List (String × JsonValue) → List JsonToken
  | [] => []
  | [(key, value)] => .string key :: .colon :: value.tokens
  | (key, value) :: members =>
      .string key :: .colon :: (value.tokens ++ .comma :: memberTokens members)

end

inductive JsonLayout
  | compact
  | indented
  deriving DecidableEq

def JsonLayout.fragments (layout : JsonLayout) (tokens : List JsonToken) :
    List String :=
  match layout with
  | .compact => tokens.map JsonToken.text
  | .indented => JsonToken.indented tokens

end ByteClass
