import Appraisal.Expression.Token
import Appraisal.Text.Parsed

/-!
# Reading expressions

Sums of products of signed operands, with calls and parentheses. Every reader works on the tokens
that are left and returns a shorter list, so the readers end without a bound on their steps; the
bound on the nesting of parentheses, calls and signs only ever cuts off. A minus sign in front of an
operand stands for a subtraction from zero.
-/

namespace Appraisal.Expression

open Text (Parsed Continued)

/-- What stays the same while one token list is read. -/
structure Reading where
  /-- The length of the whole list; the position of a token is told from what follows it. -/
  size : Nat
  maxDepth : Nat

namespace Reading

def position (r : Reading) (ts : List Token) : Nat :=
  r.size - ts.length

/-- One level further in. -/
def enter (r : Reading) (depth : Nat) : Except SyntaxError Nat :=
  if depth < r.maxDepth then .ok (depth + 1) else .error (.tooDeep r.maxDepth)

def sumOperator? : Token → Option Operator
  | .plus => some .add
  | .minus => some .sub
  | _ => none

def productOperator? : Token → Option Operator
  | .star => some .mul
  | .slash => some .div
  | _ => none

mutual

/-- A sum at the front of the tokens. -/
def sum (r : Reading) (depth : Nat) (ts : List Token) : Except SyntaxError (Parsed Expression ts) :=
  do
  let first ← r.product depth ts
  let last ← r.sumTail depth first.value first.rest
  return first.andThen last
termination_by (ts.length, 5)
decreasing_by
  · exact Prod.Lex.right _ (by decide)
  · exact Prod.Lex.left _ _ first.shorter

/-- The further terms of a sum that starts with `left`. -/
def sumTail (r : Reading) (depth : Nat) (left : Expression) (ts : List Token) :
    Except SyntaxError (Continued Expression ts) :=
  match ts with
  | [] => .ok ⟨left, [], Nat.le_refl _⟩
  | token :: rest =>
    match sumOperator? token with
    | none => .ok ⟨left, token :: rest, Nat.le_refl _⟩
    | some op => do
      let term ← r.product depth rest
      let last ← r.sumTail depth (.binary op left term.value) term.rest
      return ⟨last.value, last.rest, by
        have := last.notLonger; have := term.shorter; simp only [List.length_cons]; omega⟩
termination_by (ts.length, 0)
decreasing_by
  · exact Prod.Lex.left _ _ (by simp)
  · exact Prod.Lex.left _ _ (by have := term.shorter; simp only [List.length_cons]; omega)

/-- A product at the front of the tokens. -/
def product (r : Reading) (depth : Nat) (ts : List Token) :
    Except SyntaxError (Parsed Expression ts) := do
  let first ← r.operand depth ts
  let last ← r.productTail depth first.value first.rest
  return first.andThen last
termination_by (ts.length, 4)
decreasing_by
  · exact Prod.Lex.right _ (by decide)
  · exact Prod.Lex.left _ _ first.shorter

/-- The further factors of a product that starts with `left`. -/
def productTail (r : Reading) (depth : Nat) (left : Expression) (ts : List Token) :
    Except SyntaxError (Continued Expression ts) :=
  match ts with
  | [] => .ok ⟨left, [], Nat.le_refl _⟩
  | .percent :: rest => .error (.unsupportedPercent (r.position (.percent :: rest)))
  | token :: rest =>
    match productOperator? token with
    | none => .ok ⟨left, token :: rest, Nat.le_refl _⟩
    | some op => do
      let factor ← r.operand depth rest
      let last ← r.productTail depth (.binary op left factor.value) factor.rest
      return ⟨last.value, last.rest, by
        have := last.notLonger; have := factor.shorter; simp only [List.length_cons]; omega⟩
termination_by (ts.length, 0)
decreasing_by
  · exact Prod.Lex.left _ _ (by simp)
  · exact Prod.Lex.left _ _ (by have := factor.shorter; simp only [List.length_cons]; omega)

/-- An operand with any number of signs. -/
def operand (r : Reading) (depth : Nat) (ts : List Token) :
    Except SyntaxError (Parsed Expression ts) :=
  match ts with
  | .plus :: rest => do
    let inner ← r.enter depth
    let p ← r.operand inner rest
    return p.widen (by simp)
  | .minus :: rest => do
    let inner ← r.enter depth
    let p ← r.operand inner rest
    return (p.map (.binary .sub (.number 0))).widen (by simp)
  | ts => r.primary depth ts
termination_by (ts.length, 3)
decreasing_by
  · exact Prod.Lex.left _ _ (by simp)
  · exact Prod.Lex.left _ _ (by simp)
  · exact Prod.Lex.right _ (by decide)

/-- A number, a variable, a call or a sum in parentheses. -/
def primary (r : Reading) (depth : Nat) (ts : List Token) :
    Except SyntaxError (Parsed Expression ts) :=
  match ts with
  | [] => .error .unexpectedEnd
  | .number value :: rest => .ok ⟨.number value, rest, by simp⟩
  | .name text :: .openParen :: rest =>
    match Function.ofName? text with
    | none => .error (.unknownFunction text)
    | some f => do
      let inner ← r.enter depth
      let p ← r.arguments inner rest
      if f.admits p.value.length then
        return (p.map (.call f)).widen (by simp only [List.length_cons]; omega)
      else .error (.wrongArity f)
  | .name text :: rest =>
    match Function.ofName? text with
    | none => .ok ⟨.var text, rest, by simp⟩
    | some f => .error (.notCalled f)
  | .openParen :: rest => do
    let inner ← r.enter depth
    let p ← r.sum inner rest
    match h : p.rest with
    | .closeParen :: after =>
      return ⟨p.value, after, by have := p.shorter; rw [h] at this; simp at this ⊢; omega⟩
    | [] => .error .missingParenthesis
    | _ => .error .expectedParenthesis
  | ts => .error (.unexpectedToken (r.position ts))
termination_by (ts.length, 2)
decreasing_by
  · exact Prod.Lex.left _ _ (by simp only [List.length_cons]; omega)
  · exact Prod.Lex.left _ _ (by simp)

/-- The arguments of a call, up to the closing parenthesis. -/
def arguments (r : Reading) (depth : Nat) (ts : List Token) :
    Except SyntaxError (Parsed (List Expression) ts) :=
  match ts with
  | .closeParen :: rest => .ok ⟨[], rest, by simp⟩
  | ts => r.argumentList depth ts
termination_by (ts.length, 7)
decreasing_by exact Prod.Lex.right _ (by decide)

/-- At least one argument, up to the closing parenthesis. -/
def argumentList (r : Reading) (depth : Nat) (ts : List Token) :
    Except SyntaxError (Parsed (List Expression) ts) := do
  let first ← r.sum depth ts
  match h : first.rest with
  | .comma :: rest =>
    have shorter : rest.length < ts.length := by
      have := first.shorter; rw [h] at this; simp at this; omega
    let others ← r.argumentList depth rest
    return (others.map (first.value :: ·)).widen (Nat.le_of_lt shorter)
  | .closeParen :: rest =>
    return ⟨[first.value], rest, by have := first.shorter; rw [h] at this; simp at this; omega⟩
  | [] => .error .missingParenthesis
  | _ => .error .expectedSeparator
termination_by (ts.length, 6)
decreasing_by
  · exact Prod.Lex.right _ (by decide)
  · exact Prod.Lex.left _ _ shorter

end

end Reading

/-- The expression that a whole token list stands for. -/
def ofTokens (maxDepth : Nat) (ts : List Token) : Except SyntaxError Expression := do
  if ts.isEmpty then .error .empty
  else
    let r : Reading := ⟨ts.length, maxDepth⟩
    let p ← r.sum 0 ts
    if p.rest.isEmpty then return p.value else .error (.unexpectedToken (r.position p.rest))

def parse (maxDepth : Nat) (text : String) : Except SyntaxError Expression := do
  ofTokens maxDepth (← tokenize text)

end Appraisal.Expression
