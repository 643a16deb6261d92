import VibesWaf.Go.Strings

/-!
# Tokens, syntax trees and errors of the rule language

The data types of the rule-expression package. A `Node` is the compiled tree of an expression:
the source's record with its unused shapes left out (`function`, `field`, `literal` and `list`
nodes are declared there and never built), and with `nil` for an absent child. The value of a
comparison is absent (`exists`), a string, or a list of strings; a number in the text is kept as
its string.

`RuleError` lists the errors by the format string that makes them, and `RuleError.text` is the
text the source returns.
-/

namespace VibesWaf

/-- The kinds of token, in the order of the source's `iota`. -/
inductive TokenType
  | eof | identifier | string | number | operator | logical
  | leftParen | rightParen | comma | leftBracket | rightBracket
  deriving DecidableEq, Repr

/-- The number behind a token kind, which is what `%v` prints. -/
def TokenType.iota : TokenType → ℕ
  | .eof => 0 | .identifier => 1 | .string => 2 | .number => 3 | .operator => 4 | .logical => 5
  | .leftParen => 6 | .rightParen => 7 | .comma => 8 | .leftBracket => 9 | .rightBracket => 10

/-- A token: its kind and its text. -/
structure Token where
  type : TokenType
  value : GoString
  deriving DecidableEq, Repr

/-- The value of a comparison node. -/
inductive Value
  | none
  | string (s : GoString)
  | list (values : List GoString)
  deriving DecidableEq, Repr

/-- A node of the compiled tree. -/
inductive Node
  | nil
  | comparison (field operator : GoString) (value : Value)
  | logical (operator : GoString) (left right : Node)
  deriving DecidableEq, Repr

/-- The errors of the rule package. `exhausted` is none of them: it marks a parser run whose
fuel ran out, which the fuel passed by `tokenize` and `parse` excludes. -/
inductive RuleError
  | unexpectedCharacter (ch : UInt8) (position : ℕ)
  | unterminatedString (start : ℕ)
  | expected (what : GoString) (got : TokenType)
  | unexpectedEOFInList
  | nodeIsNil
  | unknownField (field : GoString)
  | unknownOperator (operator : GoString)
  | unknownLogicalOperator (operator : GoString)
  | invalidRegexPattern (e : GoString)
  | invalidRegex (e : GoString)
  | exhausted
  deriving DecidableEq, Repr

/-- The text of an error. -/
def RuleError.text : RuleError → GoString
  | .unexpectedCharacter ch position =>
    str "unexpected character '" ++ String.utf8EncodeChar (Char.ofNat ch.toNat) ++
      str "' at position " ++ natText position
  | .unterminatedString start => str "unterminated string at position " ++ natText start
  | .expected what got => str "expected " ++ what ++ natText got.iota
  | .unexpectedEOFInList => str "unexpected EOF while parsing list"
  | .nodeIsNil => str "node is nil"
  | .unknownField field => str "unknown field: " ++ field
  | .unknownOperator operator => str "unknown operator: " ++ operator
  | .unknownLogicalOperator operator => str "unknown logical operator: " ++ operator
  | .invalidRegexPattern e => str "invalid regex pattern: " ++ e
  | .invalidRegex e => str "invalid regex: " ++ e
  | .exhausted => []

/-- The operators of the rule language, as the lexer and the validator list them. -/
def operators : List GoString :=
  [str "eq", str "neq", str "in", str "not_in", str "contains", str "not_contains",
    str "prefix", str "suffix", str "regex", str "not_regex", str "gt", str "lt", str "gte",
    str "lte", str "exists", str "not_exists"]

end VibesWaf
