import NamespaceMerge.Script.Syntax

/-! The printed form of a script before white space is settled: texts with their places, and layout
marks between them. -/

namespace NamespaceMerge.Script

inductive LayoutMark
  | openBlock
  | closeBlock
  | endStatement
  | space
  /-- A space that stays in front of a semicolon. -/
  | wordSpace
  /-- A space where tokens would run together. -/
  | optionalSpace
  | indent
  | dedent
  | newline
  /-- A newline unless there is one already. -/
  | optionalNewline
deriving DecidableEq

inductive Chunk
  | text (text : String) (place : Position)
  /-- A layout mark of a node; `isLoop` in the head of a loop. -/
  | mark (mark : LayoutMark) (origin : Origin) (isLoop : Bool)

namespace Origin

/-- A text of the node. -/
def print (origin : Origin) (text : String) : Chunk := .text text (origin.place text)

def layout (origin : Origin) (mark : LayoutMark) : Chunk := .mark mark origin false

/-- The comments of the node, each on a line of its own. -/
def printComments (origin : Origin) : List Chunk :=
  origin.comments.flatMap fun c => [.text c.text c.position, .mark .newline {} false]

/-- A block in braces. -/
def braces (origin : Origin) (body : List Chunk) : List Chunk :=
  [origin.layout .openBlock, origin.layout .indent, origin.layout .newline] ++ body
    ++ [origin.layout .dedent, origin.layout .optionalNewline, origin.layout .closeBlock]

end Origin

/-- Puts `separator` between the parts. -/
def separate (separator : List Chunk) (parts : List (List Chunk)) : List Chunk :=
  separator.intercalate parts

def Name.chunks (name : Name) : List Chunk :=
  name.origin.printComments ++ [name.origin.print name.text]

def Origin.list (origin : Origin) (parts : List (List Chunk)) : List Chunk :=
  separate [origin.print ",", origin.layout .space] parts

/-- The word `function`, the name and the parameters. -/
def functionHead (origin : Origin) (name : Option Name) (parameters : List Name) : List Chunk :=
  let named := match name with
    | some name => origin.layout .wordSpace :: name.chunks
    | none => []
  origin.printComments ++ origin.print "function" :: named
    ++ origin.print "(" :: origin.list (parameters.map Name.chunks)
    ++ [origin.print ")", origin.layout .space]

/-- A jump with its optional label. -/
def jumpChunks (origin : Origin) (word : String) (label : Option Name) : List Chunk :=
  let labelled := match label with
    | some label => origin.layout .wordSpace :: label.chunks
    | none => []
  origin.printComments ++ origin.print word :: labelled ++ [origin.layout .endStatement]

mutual

def Expression.chunks : Expression → List Chunk
  | .identifier name => name.chunks
  | .constant o text => o.printComments ++ [o.print text]
  | .array o items => o.printComments ++ o.print "[" :: itemChunks o items ++ [o.print "]"]
  | .elision o count =>
    o.printComments ++ [o.print (String.ofList (List.replicate count ','))]
  | .object o [] => o.printComments ++ [o.print "\x7b", o.print "\x7d"]
  | .object o (first :: rest) =>
    o.printComments ++ [o.print "\x7b", o.layout .indent, o.layout .newline]
      ++ separate [o.print ",", o.layout .newline] (first.chunks :: propertyChunks rest)
      ++ [o.layout .dedent, o.layout .newline, o.print "\x7d"]
  | .group o inner => o.printComments ++ o.print "(" :: inner.chunks ++ [o.print ")"]
  | .function o name parameters body =>
    functionHead o name parameters ++ o.braces (separate [o.layout .newline] (statementChunks body))
  | .member o owner name => o.printComments ++ owner.chunks ++ o.print "." :: name.chunks
  | .index o owner index =>
    o.printComments ++ owner.chunks ++ o.print "[" :: index.chunks ++ [o.print "]"]
  | .create o callee => o.printComments ++ o.print "new" :: o.layout .wordSpace :: callee.chunks
  | .construct o callee ao arguments =>
    o.printComments ++ o.print "new" :: o.layout .wordSpace :: callee.chunks
      ++ ao.printComments ++ ao.print "(" :: ao.list (expressionChunks arguments) ++ [ao.print ")"]
  | .call o callee ao arguments =>
    o.printComments ++ callee.chunks
      ++ ao.printComments ++ ao.print "(" :: ao.list (expressionChunks arguments) ++ [ao.print ")"]
  | .unary o operator operand =>
    o.printComments ++ o.print operator :: o.layout .optionalSpace :: operand.chunks
  | .increment o operand operator => o.printComments ++ operand.chunks ++ [o.print operator]
  | .binary o operator left right =>
    o.printComments ++ left.chunks
      ++ o.layout .space :: o.print operator :: o.layout .space :: right.chunks
  | .conditional o test yes no =>
    o.printComments ++ test.chunks
      ++ o.layout .space :: o.print "?" :: o.layout .space :: yes.chunks
      ++ o.layout .space :: o.print ":" :: o.layout .space :: no.chunks
  | .assign o operator target value =>
    o.printComments ++ target.chunks
      ++ o.layout .optionalSpace :: o.print operator :: o.layout .space :: value.chunks
  | .comma o left right =>
    o.printComments ++ left.chunks ++ o.print "," :: o.layout .space :: right.chunks

def expressionChunks : List Expression → List (List Chunk)
  | [] => []
  | e :: rest => e.chunks :: expressionChunks rest

/-- The items of an array. Items left out bring their own commas. -/
def itemChunks (o : Origin) : List Expression → List Chunk
  | [] => []
  | [item] => item.chunks
  | item :: next :: rest =>
    let isElision : Expression → Bool
      | .elision .. => true
      | _ => false
    item.chunks ++ (if isElision item then [] else [.text "," .none])
      ++ (if isElision next then [] else [o.layout .space]) ++ itemChunks o (next :: rest)

def Property.chunks : Property → List Chunk
  | .value o name value =>
    o.printComments ++ name.chunks
      ++ o.layout .optionalSpace :: o.print ":" :: o.layout .space :: value.chunks
  | .getter o name body =>
    o.printComments ++ o.print "get" :: o.layout .wordSpace :: name.chunks
      ++ [o.print "(", o.print ")", o.layout .space]
      ++ o.braces (separate [o.layout .newline] (statementChunks body))
  | .setter o name parameter body =>
    o.printComments ++ o.print "set" :: o.layout .wordSpace :: name.chunks
      ++ o.print "(" :: parameter.chunks ++ [o.print ")", o.layout .space]
      ++ o.braces (separate [o.layout .newline] (statementChunks body))

def propertyChunks : List Property → List (List Chunk)
  | [] => []
  | p :: rest => p.chunks :: propertyChunks rest

def Declarator.chunks : Declarator → List Chunk
  | .bare o name => o.printComments ++ name.chunks
  | .initialized o name value =>
    o.printComments ++ name.chunks
      ++ o.layout .space :: o.print "=" :: o.layout .space :: value.chunks

def declaratorChunks : List Declarator → List (List Chunk)
  | [] => []
  | d :: rest => d.chunks :: declaratorChunks rest

/-- A space and the value after it, if there is one. -/
def valueChunks (o : Origin) : Option Expression → List Chunk
  | none => []
  | some value => o.layout .space :: value.chunks

def optionChunks : Option Expression → List Chunk
  | none => []
  | some e => e.chunks

def Statement.chunks : Statement → List Chunk
  | .block o body =>
    o.printComments ++ o.braces (separate [o.layout .newline] (statementChunks body))
  | .variables o declarators =>
    o.printComments ++ o.print "var" :: o.layout .wordSpace :: o.list (declaratorChunks declarators)
      ++ [o.layout .endStatement]
  | .empty o => o.printComments ++ [o.layout .endStatement]
  | .expression o e => o.printComments ++ e.chunks ++ [o.layout .endStatement]
  | .ifThen o test yes =>
    o.printComments ++ o.print "if" :: o.layout .space :: o.print "(" :: test.chunks
      ++ o.print ")" :: o.layout .space :: yes.chunks
  | .ifElse o test yes no =>
    o.printComments ++ o.print "if" :: o.layout .space :: o.print "(" :: test.chunks
      ++ o.print ")" :: o.layout .space :: yes.chunks
      ++ o.layout .newline :: o.print "else" :: o.layout .space :: no.chunks
  | .doWhile o body test =>
    o.printComments ++ o.print "do" :: o.layout .space :: body.chunks
      ++ o.layout .space :: o.print "while" :: o.layout .space :: o.print "(" :: test.chunks
      ++ [o.print ")", o.layout .endStatement]
  | .whileLoop o test body =>
    o.printComments ++ o.print "while" :: o.layout .space :: o.print "(" :: test.chunks
      ++ o.print ")" :: .mark .optionalSpace o true :: body.chunks
  | .forLoop o start test step body =>
    o.printComments ++ o.print "for" :: o.layout .space :: o.print "(" :: start.chunks
      ++ .mark .optionalSpace o true :: test.chunks
      ++ .mark .optionalSpace o true :: optionChunks step
      ++ o.print ")" :: o.layout .space :: body.chunks
  | .forIn o item iterable body =>
    o.printComments ++ o.print "for" :: o.layout .space :: o.print "(" :: item.chunks
      ++ o.layout .wordSpace :: o.print "in" :: o.layout .space :: iterable.chunks
      ++ o.print ")" :: o.layout .space :: body.chunks
  | .forVariableIn o declaratorOrigin name value iterable body =>
    let initial := match value with
      | none => []
      | some value =>
        declaratorOrigin.layout .space :: declaratorOrigin.print "="
          :: declaratorOrigin.layout .space :: value.chunks
    o.printComments ++ o.print "for" :: o.layout .space :: o.print "("
      :: declaratorOrigin.printComments ++ declaratorOrigin.print "var " :: name.chunks ++ initial
      ++ o.layout .wordSpace :: o.print "in" :: o.layout .space :: iterable.chunks
      ++ o.print ")" :: o.layout .space :: body.chunks
  | .continueTo o label => jumpChunks o "continue" label
  | .breakOut o label => jumpChunks o "break" label
  | .returnFrom o value =>
    o.printComments ++ o.print "return" :: valueChunks o value ++ [o.layout .endStatement]
  | .withScope o subject body =>
    o.printComments ++ o.print "with" :: o.layout .space :: o.print "(" :: subject.chunks
      ++ o.print ")" :: o.layout .space :: body.chunks
  | .switchOn o subject clausesOrigin clauses =>
    o.printComments ++ o.print "switch" :: o.layout .space :: o.print "(" :: subject.chunks
      ++ o.print ")" :: o.layout .space
      :: clausesOrigin.braces (separate [clausesOrigin.layout .newline] (clauseChunks clauses))
  | .labelled o label body =>
    o.printComments ++ label.chunks ++ o.print ":" :: o.layout .space :: body.chunks
  | .throwing o value =>
    o.printComments ++ o.print "throw" :: o.layout .space :: value.chunks
      ++ [o.layout .endStatement]
  | .tryBlock o body handlers =>
    o.printComments ++ o.print "try" :: o.layout .space :: body.chunks ++ handlerChunks o handlers
  | .debugger o => o.printComments ++ [o.print "debugger", o.layout .endStatement]
  | .function o name parameters body =>
    functionHead o (some name) parameters
      ++ o.braces (separate [o.layout .newline] (statementChunks body))

def statementChunks : List Statement → List (List Chunk)
  | [] => []
  | s :: rest => s.chunks :: statementChunks rest

def Clause.chunks : Clause → List Chunk
  | .caseOf o test body =>
    o.printComments ++ o.print "case" :: o.layout .space :: test.chunks
      ++ o.print ":" :: o.layout .indent :: o.layout .newline
      :: separate [o.layout .newline] (statementChunks body) ++ [o.layout .dedent]
  | .defaultCase o body =>
    o.printComments ++ o.print "default" :: o.print ":" :: o.layout .indent :: o.layout .newline
      :: separate [o.layout .newline] (statementChunks body) ++ [o.layout .dedent]

def clauseChunks : List Clause → List (List Chunk)
  | [] => []
  | c :: rest => c.chunks :: clauseChunks rest

def Handler.chunks : Handler → List Chunk
  | .catching o name body =>
    o.printComments ++ o.print "catch" :: o.layout .space :: o.print "(" :: name.chunks
      ++ o.print ")" :: o.layout .space :: body.chunks
  | .finishing o body => o.printComments ++ o.print "finally" :: o.layout .space :: body.chunks

/-- The handlers of a `try`, each on a new line. -/
def handlerChunks (o : Origin) : List Handler → List Chunk
  | [] => []
  | h :: rest => o.layout .newline :: h.chunks ++ handlerChunks o rest

end

/-- A whole script, which ends with a line of its own. -/
def programChunks (body : List Statement) : List Chunk :=
  separate [.mark .newline {} false] (statementChunks body) ++ [.mark .optionalNewline {} false]

end NamespaceMerge.Script
