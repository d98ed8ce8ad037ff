import CandleScript.Number.Read
import CandleScript.Script.Node
import CandleScript.Script.SourceError

namespace CandleScript

namespace Parse

-- An expression read from the front of the tokens: its tree, the height of
-- the tree, and the tokens that follow.
structure Parsed where
  node : Node
  height : Nat
  rest : List Token

abbrev Reader := List Token → Except ParseError Parsed

def tooDeep (blamed : Token) : ParseError := ⟨.tooDeep, blamed.position⟩

-- Accepts a tree that is not too tall.
def bounded (node : Node) (height : Nat) (blamed : Token) (rest : List Token) :
    Except ParseError Parsed :=
  if maxNesting < height then .error (tooDeep blamed) else .ok ⟨node, height, rest⟩

-- How to read on one level of nesting further inside. The token given first
-- opens that level and is blamed when there is no room for it.
structure Inner where
  operand : Token → Reader
  expression : Token → (least : Nat) → Reader

-- Operators and their right operands, as long as the operators bind at least
-- as tightly as `least`. Each takes a token, so `fuel` is a bound.
def climb (inner : Inner) (least : Nat) : (fuel : Nat) → Parsed → Except ParseError Parsed
  | 0, left => .ok left
  | fuel + 1, left =>
    match left.rest with
    | [] => .ok left
    | token :: rest =>
      match token.kind with
      | .op op =>
        if op.precedence < least then .ok left
        else do
          let right ← inner.expression token (op.precedence + 1) rest
          let node := .binary op left.node right.node (left.node.span.cover right.node.span)
          let left ← bounded node (max left.height right.height + 1) token right.rest
          climb inner least fuel left
      | _ => .ok left

-- The arguments of a call after its bracket `opened`, at least one.
-- `tallest` is the height of the tallest one so far.
def arguments (inner : Inner) (last : Position) (callee opened : Token) :
    (fuel : Nat) → (found : List Node) → (tallest : Nat) → Reader
  | 0, _, _, _ => .error ⟨.ended "')'", last⟩
  | fuel + 1, found, tallest, tokens => do
    let argument ← inner.expression opened 1 tokens
    let found := found ++ [argument.node]
    let tallest := max tallest argument.height
    match argument.rest with
    | [] => .error ⟨.ended "')'", last⟩
    | next :: rest =>
      match next.kind with
      | .comma => arguments inner last callee opened fuel found tallest rest
      | .closeParen =>
        bounded (.call callee.literal found (callee.span.cover next.span)) (tallest + 1) callee rest
      | .ending => .error ⟨.unclosed opened.position next, next.position⟩
      | _ => .error ⟨.unexpected next "',' or ')'", next.position⟩

-- A name, or a call when a bracket follows it.
def named (inner : Inner) (last : Position) (name : Token) : Reader
  | [] => .ok ⟨.name name.literal name.span, 1, []⟩
  | opened :: rest =>
    if opened.kind = .openParen then
      match rest with
      | close :: more =>
        if close.kind = .closeParen then
          .ok ⟨.call name.literal [] (name.span.cover close.span), 1, more⟩
        else arguments inner last name opened rest.length [] 0 rest
      | [] => arguments inner last name opened 1 [] 0 []
    else .ok ⟨.name name.literal name.span, 1, opened :: rest⟩

def closeGroup (last : Position) (opened : Token) (group : Parsed) : Except ParseError Parsed :=
  match group.rest with
  | [] => .error ⟨.ended "')'", last⟩
  | close :: rest =>
    if close.kind = .closeParen then .ok { group with rest }
    else .error ⟨.unclosed opened.position close, close.position⟩

-- A minus sign before an operand is a subtraction from zero.
def negated (minus : Token) (operand : Parsed) : Except ParseError Parsed :=
  bounded (.binary .sub (.number 0.0 minus.span) operand.node (minus.span.cover operand.node.span))
    (operand.height + 1) minus operand.rest

-- The forms an operand can have. `last` is the position of the last token of
-- the script, where a script that ends too early is blamed.
def operand (inner : Inner) (last : Position) : Reader
  | [] => .error ⟨.ended "expression", last⟩
  | token :: rest =>
    match token.kind with
    | .name | .ifWord | .elseWord => named inner last token rest
    | .number =>
      match Number.read token.literal.toList with
      | .ok value => .ok ⟨.number value token.span, 1, rest⟩
      | .error _ => .error ⟨.badNumber token.literal, token.position⟩
    | .text => .ok ⟨.text token.literal token.span, 1, rest⟩
    | .openParen => do closeGroup last token (← inner.expression token 1 rest)
    | .op .sub => do negated token (← inner.operand token rest)
    | .ending => .error ⟨.ended "expression", last⟩
    | _ => .error ⟨.unexpected token "expression", token.position⟩

def expression (inner : Inner) (last : Position) (least : Nat) : Reader := fun tokens => do
  climb inner least tokens.length (← operand inner last tokens)

-- Reading with room for `room` further levels of nesting.
def within (last : Position) : (room : Nat) → Inner
  | 0 => ⟨fun blamed _ => .error (tooDeep blamed), fun blamed _ _ => .error (tooDeep blamed)⟩
  | room + 1 =>
    ⟨fun _ => operand (within last room) last, fun _ least => expression (within last room) last least⟩

-- The right side of an assignment or a bare expression.
def wholeExpression (last : Position) : Reader := expression (within last maxNesting) last 1

def bareStatement (last : Position) (tokens : List Token) : Except ParseError (Node × List Token) := do
  let parsed ← wholeExpression last tokens
  return (parsed.node, parsed.rest)

-- A name with an assignment sign after it starts an assignment, anything else
-- is a bare expression.
def statement (last : Position) (tokens : List Token) : Except ParseError (Node × List Token) :=
  match tokens with
  | name :: sign :: rest =>
    if name.kind.isName ∧ sign.kind = .assign then do
      let parsed ← wholeExpression last rest
      return (.assign name.literal parsed.node (name.span.cover parsed.node.span), parsed.rest)
    else bareStatement last tokens
  | _ => bareStatement last tokens

-- Statements up to the end of the tokens or the first end token.
def statements (last : Position) : (fuel : Nat) → List Token → Except ParseError Script
  | 0, _ => .ok []
  | _ + 1, [] => .ok []
  | fuel + 1, token :: rest =>
    if token.kind = .ending then .ok []
    else do
      let (node, rest) ← statement last (token :: rest)
      let nodes ← statements last fuel rest
      return node :: nodes

end Parse

def parse (tokens : List Token) : Except ParseError Script :=
  let last := (tokens.getLast?.map Token.position).getD .start
  Parse.statements last tokens.length tokens

end CandleScript
