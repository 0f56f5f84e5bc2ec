import RedisPvxsIoc.Config.Endpoints

/-!
# The Supported Subset of Access Security Files

Model of `tokenizeAcf` and `AcfSubsetParser` in `src/access_control.cpp`.  The tokenizer reads
the text once, character by character; where the source runs an inner loop (a comment, a
word, a quoted string) the model is in another mode.

A loop of the parser consumes at least one token per turn, so it is given as many turns as
there are tokens left.  When they are used up no token is left either, and then the source's
`peek` throws what the last turn of `whileTokens` throws.

## Main definitions

- `tokenizeAcf`, `inspectAcf`

## Main results

- `default_mem_inspectAcf`: the group `DEFAULT` always exists
-/

namespace RedisPvxsIoc.Access

open Foundations Config

/-! ## Tokens -/

structure Token where
  text : String := ""
  line : Nat := 1
  column : Nat := 1
  quoted : Bool := false
  deriving DecidableEq, Repr

def isSpace (ch : Char) : Bool := [' ', '\t', '\n', '\x0b', '\x0c', '\r'].contains ch

def isPunctuation (ch : Char) : Bool := ['(', ')', '{', '}', ','].contains ch

/-- The characters at which a word ends. -/
def breaksWord (ch : Char) : Bool := isSpace ch || isPunctuation ch || ch == '#' || ch == '"'

/-- The loop that the tokenizer is in. -/
inductive Lexing where
  | top
  | comment
  | word (text : List Char) (startColumn : Nat)
  | quoted (value : List Char) (startLine startColumn : Nat) (escaped : Bool)

structure Lexer where
  tokens : List Token := []
  line : Nat := 1
  column : Nat := 1
  mode : Lexing := .top

namespace Lexer

/-- A character met by the outer loop. -/
def outer (l : Lexer) (ch : Char) : Lexer :=
  if isSpace ch then
    if ch = '\n' then { l with line := l.line + 1, column := 1 }
    else { l with column := l.column + 1 }
  else if ch = '#' then { l with column := l.column + 1, mode := .comment }
  else if ch = '"' then
    { l with column := l.column + 1, mode := .quoted [] l.line l.column false }
  else if isPunctuation ch then
    { l with
      tokens := l.tokens ++ [{ text := String.singleton ch, line := l.line, column := l.column }]
      column := l.column + 1 }
  else { l with column := l.column + 1, mode := .word [ch] l.column }

/-- The position after a character of a quoted string. -/
def advance (l : Lexer) (ch : Char) : Lexer :=
  if ch = '\n' then { l with line := l.line + 1, column := 1 }
  else { l with column := l.column + 1 }

/-- The word read so far becomes a token. -/
def endWord (l : Lexer) (text : List Char) (startColumn : Nat) : Lexer :=
  { l with
    tokens := l.tokens ++ [{ text := String.ofList text, line := l.line, column := startColumn }]
    mode := .top }

def feed (l : Lexer) (ch : Char) : Lexer :=
  match l.mode with
  | .top => l.outer ch
  | .comment =>
    if ch = '\n' then { l with mode := .top }.outer ch else { l with column := l.column + 1 }
  | .word text start =>
    if breaksWord ch then (l.endWord text start).outer ch
    else { l with column := l.column + 1, mode := .word (text ++ [ch]) start }
  | .quoted value line column escaped =>
    let l := l.advance ch
    if escaped then { l with mode := .quoted (value ++ [ch]) line column false }
    else if ch = '\\' then { l with mode := .quoted value line column true }
    else if ch = '"' then
      { l with
        tokens := l.tokens ++ [{ text := String.ofList value, line, column, quoted := true }]
        mode := .top }
    else { l with mode := .quoted (value ++ [ch]) line column false }

/-- `ACF <line>:<column>: ` in front of a message. -/
def located (line column : Nat) (message : String) : String :=
  "ACF " ++ toString line ++ ":" ++ toString column ++ ": " ++ message

def finish (l : Lexer) : Except String (List Token) :=
  match l.mode with
  | .top | .comment => .ok l.tokens
  | .word text start => .ok (l.endWord text start).tokens
  | .quoted _ line column _ => .error (located line column "unterminated string")

end Lexer

def tokenizeAcf (text : String) : Except String (List Token) :=
  (text.toList.foldl Lexer.feed {}).finish

/-! ## The parser -/

structure Reference where
  kind : String
  name : String
  token : Token

/-- `tokens` are the ones from `position_` on, `last` is the one before them. -/
structure AcfSubsetParser where
  tokens : List Token
  last : Token := {}
  uags : NameSet := ∅
  hags : NameSet := ∅
  references : List Reference := []

abbrev Parse := StateT AcfSubsetParser (Except String)

def acfError {α : Type} (token : Token) (message : String) : Parse α :=
  throw (Lexer.located token.line token.column message)

def upper (text : String) : String := String.ofList (text.toList.map Char.toUpper)

namespace AcfSubsetParser

def done : Parse Bool := do return (← get).tokens.isEmpty

def peek : Parse Token := do
  match (← get).tokens with
  | [] => throw "ACF: unexpected end of policy"
  | token :: _ => return token

def take : Parse Token := do
  let token ← peek
  modify fun p => { p with tokens := p.tokens.tail, last := token }
  return token

def expect (text : String) : Parse Unit := do
  let token ← peek
  if token.text ≠ text then acfError token ("expected '" ++ text ++ "'")
  discard take

def name : Parse Token := do
  let result ← take
  if result.text = "" ∨ (¬ result.quoted ∧ ["(", ")", "\x7b", "\x7d", ","].contains result.text) then
    acfError result "expected a name"
  return result

/-- `CALC` and `INPA` to `INPU`. -/
def isDeferred (keyword : String) : Bool :=
  keyword = "CALC" ||
  match keyword.toList with
  | ['I', 'N', 'P', ch] => 'A' ≤ ch && ch ≤ 'U'
  | _ => false

def rejectDeferred (token : Token) : Parse Unit :=
  if ¬ token.quoted ∧ isDeferred (upper token.text) then
    acfError token (upper token.text ++ " is outside the supported ACF subset")
  else pure ()

/-- A loop whose turns consume tokens. -/
def whileTokens (condition : Parse Bool) (turn : Parse Unit) : Nat → Parse Unit
  | 0 => do
    if ← condition then throw "ACF: unexpected end of policy"
  | n + 1 => do
    if ← condition then
      turn
      whileTokens condition turn n

/-- The number of turns that a loop can take from here. -/
def turns : Parse Nat := do return (← get).tokens.length

def nextIs (text : String) : Parse Bool := do return (← peek).text = text

/-- The names after the first one of a call. -/
def moreNames : Nat → List String → Parse (List String)
  | 0, result => do
    if ← nextIs "," then throw "ACF: unexpected end of policy"
    return result
  | n + 1, result => do
    if ← nextIs "," then
      discard take
      let next ← name
      moreNames n (result ++ [next.text])
    else return result

def callNames (keyword : String) : Parse (List String) := do
  let actual ← take
  rejectDeferred actual
  if actual.quoted ∨ upper actual.text ≠ keyword then acfError actual ("expected " ++ keyword)
  expect "("
  let first ← name
  let result ← moreNames (← turns) [first.text]
  expect ")"
  return result

def definitionName (keyword : String) : Parse String := do
  match ← callNames keyword with
  | [only] => return only
  | _ => acfError (← get).last (keyword ++ " definitions require exactly one name")

/-- `definitions.insert(definition)`; the flag is `.second`. -/
def define (keyword definition : String) : Parse Bool := do
  let p ← get
  if keyword = "UAG" then
    set { p with uags := p.uags.insert definition () }
    return !p.uags.contains definition
  else
    set { p with hags := p.hags.insert definition () }
    return !p.hags.contains definition

def parseNamedList (keyword : String) : Parse Unit := do
  let definition ← definitionName keyword
  if !(← define keyword definition) then
    acfError (← get).last ("duplicate " ++ keyword ++ " '" ++ definition ++ "'")
  expect "\x7b"
  if !(← nextIs "\x7d") then
    discard name
    whileTokens (do return !(← nextIs "\x7d")) (do expect ","; discard name) (← turns)
  expect "\x7d"

/-- One condition of a rule: `UAG(..)` or `HAG(..)`. -/
def parseCondition : Parse Unit := do
  let token ← peek
  rejectDeferred token
  let condition := upper token.text
  if condition ≠ "UAG" ∧ condition ≠ "HAG" then
    acfError token "only UAG and HAG conditions are supported in RULE"
  let names ← callNames condition
  let found : List Reference := names.map fun referenced =>
    { kind := condition, name := referenced, token }
  modify fun p => { p with references := p.references ++ found }

def parseRule : Parse Unit := do
  let rule ← take
  rejectDeferred rule
  if rule.quoted ∨ upper rule.text ≠ "RULE" then
    acfError rule "only RULE is supported inside ASG"
  expect "("
  let level ← name
  if level.quoted ∨ (level.text ≠ "0" ∧ level.text ≠ "1") then
    acfError level "RULE access level must be 0 or 1"
  expect ","
  let permission ← name
  let permissionName := if permission.quoted then "" else upper permission.text
  if ¬ ["NONE", "READ", "WRITE"].contains permissionName then
    acfError permission "RULE permission must be NONE, READ, or WRITE"
  if ← nextIs "," then
    discard take
    let trap ← name
    let trapName := if trap.quoted then "" else upper trap.text
    if ¬ ["TRAPWRITE", "NOTRAPWRITE"].contains trapName then
      acfError trap "RULE option must be TRAPWRITE or NOTRAPWRITE"
  expect ")"
  if !(← done) then
    if ← nextIs "\x7b" then
      discard take
      whileTokens (do return !(← nextIs "\x7d")) parseCondition (← turns)
      expect "\x7d"

def parseAsg : Parse String := do
  let group ← definitionName "ASG"
  expect "\x7b"
  whileTokens (do return !(← nextIs "\x7d")) parseRule (← turns)
  expect "\x7d"
  return group

/-- One top-level construct, and the groups defined so far. -/
def parseConstruct (groups : NameSet) : Parse NameSet := do
  let token ← peek
  rejectDeferred token
  let keyword := upper token.text
  if keyword = "UAG" ∨ keyword = "HAG" then
    parseNamedList keyword
    return groups
  else if keyword = "ASG" then
    let group ← parseAsg
    if groups.contains group then
      acfError (← get).last ("duplicate ASG '" ++ group ++ "'")
    return groups.insert group ()
  else acfError token ("unknown top-level construct '" ++ token.text ++ "'")

def parseConstructs : Nat → NameSet → Parse NameSet
  | 0, groups => return groups
  | n + 1, groups => do
    if ← done then return groups
    parseConstructs n (← parseConstruct groups)

def checkReference (reference : Reference) : Parse Unit := do
  let p ← get
  let definitions := if reference.kind = "UAG" then p.uags else p.hags
  if !definitions.contains reference.name then
    acfError reference.token
      (reference.kind ++ " references undefined group '" ++ reference.name ++ "'")

def parse : Parse NameSet := do
  let groups ← parseConstructs (← turns) ∅
  (← get).references.forM checkReference
  return groups.insert "DEFAULT" ()

end AcfSubsetParser

def inspectAcf (text : String) : Except String NameSet := do
  let tokens ← tokenizeAcf text
  AcfSubsetParser.parse.run' { tokens }

/-- **`DEFAULT` exists in every accepted policy.** -/
theorem default_mem_inspectAcf {text : String} {groups : NameSet}
    (h : inspectAcf text = .ok groups) : groups.contains "DEFAULT" = true := by
  unfold inspectAcf at h
  obtain ⟨tokens, -, hparse⟩ := bind_eq_ok.mp h
  simp only [AcfSubsetParser.parse, StateT.run'_eq, StateT.run_bind, StateT.run_pure, map_bind,
    map_pure, bind_eq_ok] at hparse
  obtain ⟨_, -, ⟨defined, p⟩, -, _, -, _, -, hlast⟩ := hparse
  cases hlast
  rw [FinMap.contains_iff]
  exact ⟨(), FinMap.find?_insert_self _ _ _⟩

example : (inspectAcf
    "UAG(ops) \x7balice, bob\x7d\nASG(RW) \x7b RULE(1, WRITE, TRAPWRITE) \x7b UAG(ops) \x7d \x7d").map
    FinMap.keys = .ok ["DEFAULT", "RW"] := by decide +kernel

end RedisPvxsIoc.Access
