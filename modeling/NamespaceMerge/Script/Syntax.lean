import NamespaceMerge.Script.Token

/-! The syntax tree of a script. Every node keeps its origin: the comments in front of it and the
places of its marks, so that printed text can be mapped back. -/

namespace NamespaceMerge.Script

/-- Where a node comes from. The marks are the keywords, punctuators and texts of the node, each
with its place; of a mark that occurs repeatedly the first place counts. -/
structure Origin where
  marks : List (String × Position) := []
  comments : List Comment := []

/-- The place of a mark, or no place. -/
def Origin.place (origin : Origin) (mark : String) : Position :=
  (origin.marks.lookup mark).getD .none

/-- An identifier, or a property name in any spelling. -/
structure Name where
  origin : Origin
  text : String

mutual

inductive Expression
  | identifier (name : Name)
  /-- `this`, a literal, a regular expression: printed as it was read. -/
  | constant (origin : Origin) (text : String)
  | array (origin : Origin) (items : List Expression)
  /-- `count` array items left out, each followed by a comma. -/
  | elision (origin : Origin) (count : Nat)
  | object (origin : Origin) (properties : List Property)
  | group (origin : Origin) (inner : Expression)
  | function (origin : Origin) (name : Option Name) (parameters : List Name)
      (body : List Statement)
  | member (origin : Origin) (owner : Expression) (name : Name)
  | index (origin : Origin) (owner index : Expression)
  /-- `new` without arguments. -/
  | create (origin : Origin) (callee : Expression)
  | construct (origin : Origin) (callee : Expression) (argumentsOrigin : Origin)
      (arguments : List Expression)
  | call (origin : Origin) (callee : Expression) (argumentsOrigin : Origin)
      (arguments : List Expression)
  | unary (origin : Origin) (operator : String) (operand : Expression)
  /-- The operator stands after its operand. -/
  | increment (origin : Origin) (operand : Expression) (operator : String)
  | binary (origin : Origin) (operator : String) (left right : Expression)
  | conditional (origin : Origin) (test yes no : Expression)
  | assign (origin : Origin) (operator : String) (target value : Expression)
  | comma (origin : Origin) (left right : Expression)

inductive Property
  | value (origin : Origin) (name : Name) (value : Expression)
  | getter (origin : Origin) (name : Name) (body : List Statement)
  | setter (origin : Origin) (name parameter : Name) (body : List Statement)

inductive Declarator
  | bare (origin : Origin) (name : Name)
  | initialized (origin : Origin) (name : Name) (value : Expression)

inductive Statement
  | block (origin : Origin) (body : List Statement)
  | variables (origin : Origin) (declarators : List Declarator)
  | empty (origin : Origin)
  | expression (origin : Origin) (expression : Expression)
  | ifThen (origin : Origin) (test : Expression) (yes : Statement)
  | ifElse (origin : Origin) (test : Expression) (yes no : Statement)
  | doWhile (origin : Origin) (body : Statement) (test : Expression)
  | whileLoop (origin : Origin) (test : Expression) (body : Statement)
  /-- The statements `start` and `test` are printed with their semicolons. -/
  | forLoop (origin : Origin) (start test : Statement) (step : Option Expression) (body : Statement)
  | forIn (origin : Origin) (item iterable : Expression) (body : Statement)
  | forVariableIn (origin declaratorOrigin : Origin) (name : Name) (value : Option Expression)
      (iterable : Expression) (body : Statement)
  | continueTo (origin : Origin) (label : Option Name)
  | breakOut (origin : Origin) (label : Option Name)
  | returnFrom (origin : Origin) (value : Option Expression)
  | withScope (origin : Origin) (subject : Expression) (body : Statement)
  | switchOn (origin : Origin) (subject : Expression) (clausesOrigin : Origin)
      (clauses : List Clause)
  | labelled (origin : Origin) (label : Name) (body : Statement)
  | throwing (origin : Origin) (value : Expression)
  | tryBlock (origin : Origin) (body : Statement) (handlers : List Handler)
  | debugger (origin : Origin)
  | function (origin : Origin) (name : Name) (parameters : List Name) (body : List Statement)

/-- A clause of a `switch`. -/
inductive Clause
  | caseOf (origin : Origin) (test : Expression) (body : List Statement)
  | defaultCase (origin : Origin) (body : List Statement)

/-- What follows the block of a `try`. -/
inductive Handler
  | catching (origin : Origin) (name : Name) (body : Statement)
  | finishing (origin : Origin) (body : Statement)

end

/-- The expression inside all parentheses around it. -/
def Expression.ungroup : Expression → Expression
  | .group _ inner => inner.ungroup
  | e => e

end NamespaceMerge.Script
