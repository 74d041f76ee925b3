/-!
# Kinds of tokens

The fixed set of lexical categories of a routine's text. Each kind has a `label`, as it is shown,
and a `tag`, as it is stored.

    Kind.ofTag? k.tag = some k                                          (ofTag?_tag)
-/

namespace RoutineParams

inductive Kind where
  | begin | declare | select | set | with
  | create | procedure | function | as
  | blank | lineComment | blockComment
  | localVariable | identifier | quotedIdentifier
  | string | nationalString | integer | numeric | real | money | hex | null
  | equals | leftParen | rightParen | comma | semicolon | dot | operator
  | reserved | unknown
deriving DecidableEq, Repr

namespace Kind

/-- Every kind, in the order of their declaration. -/
def all : List Kind :=
  [begin, declare, select, set, .with, create, procedure, function, as,
   blank, lineComment, blockComment, localVariable, identifier, quotedIdentifier,
   string, nationalString, integer, numeric, real, money, hex, null,
   equals, leftParen, rightParen, comma, semicolon, dot, operator, reserved, unknown]

/-- The kind as it is shown. -/
def label : Kind → String
  | begin => "begin"
  | declare => "declare"
  | select => "select"
  | set => "set"
  | .with => "with"
  | create => "create"
  | procedure => "procedure"
  | function => "function"
  | as => "as"
  | blank => "whitespace"
  | lineComment => "single_line_comment"
  | blockComment => "multiline_comment"
  | localVariable => "variable"
  | identifier => "identifier"
  | quotedIdentifier => "quoted_identifier"
  | string => "ascii_string_literal"
  | nationalString => "unicode_string_literal"
  | integer => "integer"
  | numeric => "numeric"
  | real => "real"
  | money => "money"
  | hex => "hex_literal"
  | null => "null"
  | equals => "equals_sign"
  | leftParen => "left_parenthesis"
  | rightParen => "right_parenthesis"
  | comma => "comma"
  | semicolon => "semicolon"
  | dot => "dot"
  | operator => "operator"
  | reserved => "keyword"
  | unknown => "unknown"

/-- The kind as it is stored. -/
def tag : Kind → String
  | begin => "Begin"
  | declare => "Declare"
  | select => "Select"
  | set => "Set"
  | .with => "With"
  | create => "Create"
  | procedure => "Procedure"
  | function => "Function"
  | as => "As"
  | blank => "WhiteSpace"
  | lineComment => "SingleLineComment"
  | blockComment => "MultilineComment"
  | localVariable => "Variable"
  | identifier => "Identifier"
  | quotedIdentifier => "QuotedIdentifier"
  | string => "AsciiStringLiteral"
  | nationalString => "UnicodeStringLiteral"
  | integer => "Integer"
  | numeric => "Numeric"
  | real => "Real"
  | money => "Money"
  | hex => "HexLiteral"
  | null => "Null"
  | equals => "EqualsSign"
  | leftParen => "LeftParenthesis"
  | rightParen => "RightParenthesis"
  | comma => "Comma"
  | semicolon => "Semicolon"
  | dot => "Dot"
  | operator => "Operator"
  | reserved => "Keyword"
  | unknown => "Unknown"

/-- The kind stored as `s`. -/
def ofTag? (s : String) : Option Kind := all.find? fun k => k.tag == s

theorem ofTag?_tag (k : Kind) : ofTag? k.tag = some k := by
  cases k <;> decide

end Kind

end RoutineParams
