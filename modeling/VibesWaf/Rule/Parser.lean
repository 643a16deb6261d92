import VibesWaf.Lib.Chain
import VibesWaf.Rule.Lexer

/-!
# The parser of the rule language

`parse` is `Parser.Parse`: recursive descent over the tokens, with the unread tokens as the
state. An expression is a chain of terms joined by `OR`, a term a chain of factors joined by
`AND`, a factor a negated factor, a parenthesised expression or a condition. The two chains are
instances of `OperatorChain.chain`.

The source recurses through `parseExpression` at every parenthesis and through `parseFactor` at
every `NOT`; here both go through the fuel of `parseFactor`, and `parse` passes one more than
the number of tokens (`parse_ne_exhausted` in `VibesWaf.Rule.Grammar` says that this is enough).
Like the source, `parse` returns after one expression and does not look at the tokens after it.
-/

namespace VibesWaf

open OperatorChain

/-- `current`: the first unread token, or an end token. -/
def current : List Token → Token
  | [] => eofToken
  | t :: _ => t

/-- `advance`. -/
def advance (ts : List Token) : List Token :=
  ts.tail

@[simp] theorem current_nil : current [] = eofToken := rfl

@[simp] theorem current_cons (t : Token) (ts : List Token) : current (t :: ts) = t := rfl

@[simp] theorem advance_cons (t : Token) (ts : List Token) : advance (t :: ts) = ts := rfl

/-- What every parser of the package returns: a result and the unread tokens. -/
abbrev Parsed (α : Type) := Except RuleError (α × List Token)

section Parser

variable [GoLib]

/-- The current token is the connective `kw` (compared in upper case). -/
def isLogical (kw : GoString) (t : Token) : Prop :=
  t.type = .logical ∧ toUpper t.value = kw

instance (kw : GoString) (t : Token) : Decidable (isLogical kw t) :=
  inferInstanceAs (Decidable (_ ∧ _))

/-- The text of a string or number token. -/
def Token.literal? (t : Token) : Option GoString :=
  if t.type = .string ∨ t.type = .number then some t.value else none

/-- The loop of `parseList`, over the tokens after the opening bracket. -/
def parseListItems : List Token → Parsed (List GoString)
  | [] => .error .unexpectedEOFInList
  | t :: ts =>
    if t.type = .rightBracket then .ok ([], ts)
    else if t.type = .eof then .error .unexpectedEOFInList
    else
      match t.literal? with
      | none => .error (.expected (str "value in list, got ") t.type)
      | some value =>
        match ts with
        | [] => .error (.expected (str "',' or ']', got ") .eof)
        | sep :: ts' =>
          if sep.type = .comma then
            match parseListItems ts' with
            | .error e => .error e
            | .ok (values, rest) => .ok (value :: values, rest)
          else if sep.type = .rightBracket then .ok ([value], ts')
          else .error (.expected (str "',' or ']', got ") sep.type)

/-- `parseList`. -/
def parseList (ts : List Token) : Parsed (List GoString) :=
  if (current ts).type ≠ .leftBracket then
    .error (.expected (str "'[', got ") (current ts).type)
  else parseListItems (advance ts)

/-- The value of a condition whose operator takes one: the tail of `parseCondition`. -/
def parseValue (field operator : GoString) (ts : List Token) : Parsed Node :=
  match (current ts).literal? with
  | none => .error (.expected (str "value, got ") (current ts).type)
  | some value => .ok (.comparison field operator (.string value), advance ts)

/-- The operator and the value of a condition on `field`. -/
def parseOperator (field : GoString) (ts : List Token) : Parsed Node :=
  if (current ts).type ≠ .operator then
    .error (.expected (str "operator, got ") (current ts).type)
  else
    let operator := (current ts).value
    let rest := advance ts
    if operator = str "exists" ∨ operator = str "not_exists" then
      .ok (.comparison field operator .none, rest)
    else if (operator = str "in" ∨ operator = str "not_in") ∧
        (current rest).type = .leftBracket then
      match parseList rest with
      | .error e => .error e
      | .ok (values, rest') => .ok (.comparison field operator (.list values), rest')
    else parseValue field operator rest

/-- `parseCondition`. -/
def parseCondition (ts : List Token) : Parsed Node :=
  if (current ts).type ≠ .identifier then
    .error (.expected (str "field, got ") (current ts).type)
  else parseOperator (current ts).value (advance ts)

/-- The state after the connective `kw`, when the current token is that connective. -/
def afterLogical (kw : GoString) (ts : List Token) : Option (List Token) :=
  if isLogical kw (current ts) then some (advance ts) else none

/-- The loop of `parseTerm` around a parser of factors. -/
def parseTermWith (factor : List Token → Parsed Node) (fuel : ℕ) : List Token → Parsed Node :=
  chain (afterLogical (str "AND")) (.logical (str "AND")) factor .exhausted fuel

/-- The loop of `parseExpression` around a parser of factors. -/
def parseExpressionWith (factor : List Token → Parsed Node) (fuel : ℕ) :
    List Token → Parsed Node :=
  chain (afterLogical (str "OR")) (.logical (str "OR")) (parseTermWith factor fuel) .exhausted fuel

/-- `parseFactor`. -/
def parseFactor : ℕ → List Token → Parsed Node
  | 0, _ => .error .exhausted
  | fuel + 1, ts =>
    if isLogical (str "NOT") (current ts) then
      match parseFactor fuel (advance ts) with
      | .error e => .error e
      | .ok (node, rest) => .ok (.logical (str "NOT") node .nil, rest)
    else if (current ts).type = .leftParen then
      match parseExpressionWith (parseFactor fuel) fuel (advance ts) with
      | .error e => .error e
      | .ok (node, rest) =>
        if (current rest).type ≠ .rightParen then
          .error (.expected (str "')' but got ") (current rest).type)
        else .ok (node, advance rest)
    else parseCondition ts

/-- `parseExpression`. -/
def parseExpression (fuel : ℕ) : List Token → Parsed Node :=
  parseExpressionWith (parseFactor fuel) fuel

/-- `Parser.Parse`: the tree of the first expression; the tokens after it are not looked at. -/
def parse (tokens : List Token) : Except RuleError Node :=
  match parseExpression (tokens.length + 1) tokens with
  | .error e => .error e
  | .ok (node, _) => .ok node

end Parser

end VibesWaf
