import TypeEnv.Json.Numeral

/-! The tokens of a JSON text, each with the positions where it starts and stops. The text is read
one character at a time; a character that no token can go on with becomes the token `bad`, and
nothing is read after it. A string keeps its escaped UTF-16 units until it ends, since half a
surrogate pair is an error only for those who need the text. -/

namespace TypeEnv.Json

inductive Token where
  | openArray | closeArray | openObject | closeObject | comma | colon
  | null
  | bool (value : Bool)
  /-- `none` is a number out of range. -/
  | number (value : Option JsonNumber)
  /-- `none` is a string that escapes half a surrogate pair. -/
  | string (text : Option String)
  | bad
  deriving DecidableEq, Repr, Inhabited

/-- A place between two characters: the line, counted from one, and the bytes before it there. -/
structure Position where
  line : Nat := 1
  column : Nat := 0
  deriving DecidableEq, Repr, Inhabited

def Position.after (position : Position) (c : Char) : Position :=
  if c = '\n' then { line := position.line + 1 }
  else { position with column := position.column + c.utf8Size }

/-- The end of a text. -/
def Position.endOf (text : String) : Position :=
  text.toList.foldl Position.after {}

structure Located where
  token : Token
  start : Position
  stop : Position
  deriving DecidableEq, Repr, Inhabited

/-- A piece of a string: a character as it stands, or a unit escaped by its number. -/
inductive Piece where
  | char (c : Char)
  | unit (n : Nat)
  deriving DecidableEq, Repr

def isLeading (n : Nat) : Bool := 0xd800 ≤ n ∧ n < 0xdc00
def isTrailing (n : Nat) : Bool := 0xdc00 ≤ n ∧ n < 0xe000

/-- The character that a leading and a trailing surrogate stand for together. -/
def joinSurrogates (high low : Nat) : Char :=
  Char.ofNat (0x10000 + (high - 0xd800) * 0x400 + (low - 0xdc00))

/-- The characters that pieces stand for; a leading surrogate needs a trailing one right after it.
-/
def decodePieces : List Piece → Option (List Char)
  | [] => some []
  | .char c :: rest => (decodePieces rest).map (c :: ·)
  | .unit high :: .unit low :: rest =>
    if isLeading high then
      if isTrailing low then (decodePieces rest).map (joinSurrogates high low :: ·) else none
    else if isTrailing high then none
    else (decodePieces (.unit low :: rest)).map (Char.ofNat high :: ·)
  | .unit n :: rest =>
    if isLeading n || isTrailing n then none else (decodePieces rest).map (Char.ofNat n :: ·)

/-! ### Numbers

The part of a number that is being read, digits newest first. -/

inductive NumeralPart where
  | minus | zero | whole | point | fraction | mark | exponentSign | exponent
  deriving DecidableEq, Repr

structure NumeralState where
  part : NumeralPart
  numeral : Numeral := {}
  deriving Repr

namespace NumeralState

def digit? (c : Char) : Option Nat :=
  if '0' ≤ c ∧ c ≤ '9' then some (c.toNat - '0'.toNat) else none

/-- What comes of a character that the number goes on with. -/
def next (s : NumeralState) (c : Char) : Option NumeralState :=
  let n := s.numeral
  let digit := digit? c
  let wholeDigit := digit.map fun d => ⟨if d = 0 ∧ n.whole = [] then .zero else .whole,
    { n with whole := d :: n.whole }⟩
  let fractionDigit := digit.map fun d =>
    ⟨.fraction, { n with fraction := some (d :: n.fraction.getD []) }⟩
  let exponentDigit := digit.map fun d =>
    ⟨.exponent, { n with exponent := n.exponent.map fun e => (e.1, d :: e.2) }⟩
  let point := if c = '.' then some ⟨.point, n⟩ else none
  let mark := if c = 'e' ∨ c = 'E' then
    some ⟨.mark, { n with exponent := some (false, []) }⟩ else none
  let sign := if c = '+' ∨ c = '-' then
    some ⟨.exponentSign, { n with exponent := some (c = '-', []) }⟩ else none
  match s.part with
  | .minus => wholeDigit
  | .zero => point <|> mark
  | .whole => wholeDigit <|> point <|> mark
  | .point => fractionDigit
  | .fraction => fractionDigit <|> mark
  | .mark => sign <|> exponentDigit
  | .exponentSign | .exponent => exponentDigit

/-- The number, if it can end before a character that is no part of it. A digit after a leading zero
is none that it can end before. -/
def finish? (s : NumeralState) (before : Option Char) : Option Numeral :=
  let complete : Bool :=
    match s.part with
    | .zero => (before.bind digit?).isNone
    | .whole | .fraction | .exponent => true
    | .minus | .point | .mark | .exponentSign => false
  if complete then
    some { s.numeral with
      whole := s.numeral.whole.reverse
      fraction := s.numeral.fraction.map List.reverse
      exponent := s.numeral.exponent.map fun e => (e.1, e.2.reverse) }
  else none

end NumeralState

/-! ### Texts -/

/-- What is being read. Pieces are newest first. -/
inductive Scan where
  | between
  | word (rest : List Char) (token : Token)
  | number (state : NumeralState)
  | string (pieces : List Piece)
  | escape (pieces : List Piece)
  | unicode (digits value : Nat) (pieces : List Piece)
  | stuck

namespace Scan

def hexDigit? (c : Char) : Option Nat :=
  if '0' ≤ c ∧ c ≤ '9' then some (c.toNat - '0'.toNat)
  else if 'a' ≤ c ∧ c ≤ 'f' then some (c.toNat - 'a'.toNat + 10)
  else if 'A' ≤ c ∧ c ≤ 'F' then some (c.toNat - 'A'.toNat + 10)
  else none

def isSpace (c : Char) : Bool := c = ' ' ∨ c = '\t' ∨ c = '\n' ∨ c = '\r'

/-- The character that follows a backslash, and the one it stands for. -/
def escaped? : Char → Option Char
  | '"' => some '"'
  | '\\' => some '\\'
  | '/' => some '/'
  | 'b' => some '\x08'
  | 'f' => some '\x0c'
  | 'n' => some '\n'
  | 'r' => some '\r'
  | 't' => some '\t'
  | _ => none

/-- What one more character makes of a scan: a token may end before the character, and one with it.
-/
structure Outcome where
  before : Option Token := none
  scan : Scan := .between
  ended : Option Token := none

def goOn (scan : Scan) : Outcome := { scan }
def emit (token : Token) : Outcome := { ended := some token }
def fail : Outcome := { scan := .stuck, ended := some .bad }

/-- A character where a token begins. -/
def start (c : Char) : Outcome :=
  match c with
  | '[' => emit .openArray
  | ']' => emit .closeArray
  | '{' => emit .openObject
  | '}' => emit .closeObject
  | ',' => emit .comma
  | ':' => emit .colon
  | '"' => goOn (.string [])
  | 'n' => goOn (.word ['u', 'l', 'l'] .null)
  | 't' => goOn (.word ['r', 'u', 'e'] (.bool true))
  | 'f' => goOn (.word ['a', 'l', 's', 'e'] (.bool false))
  | '-' => goOn (.number ⟨.minus, { negative := true }⟩)
  | c =>
    if isSpace c then goOn .between
    else
      match NumeralState.next ⟨.minus, {}⟩ c with
      | some state => goOn (.number state)
      | none => fail

/-- The outcome of one more character. -/
def step (scan : Scan) (c : Char) : Outcome :=
  match scan with
  | .between => start c
  | .word (expected :: rest) token =>
    if c ≠ expected then fail
    else if rest.isEmpty then emit token else goOn (.word rest token)
  | .word [] token => emit token
  | .number state =>
    match state.next c with
    | some state => goOn (.number state)
    | none =>
      match state.finish? (some c) with
      | some numeral => { start c with before := some (.number numeral.value?) }
      | none => fail
  | .string pieces =>
    if c = '"' then emit (.string ((decodePieces pieces.reverse).map String.ofList))
    else if c = '\\' then goOn (.escape pieces)
    else if c.toNat < 0x20 then fail
    else goOn (.string (.char c :: pieces))
  | .escape pieces =>
    if c = 'u' then goOn (.unicode 0 0 pieces)
    else
      match escaped? c with
      | some stands => goOn (.string (.char stands :: pieces))
      | none => fail
  | .unicode digits value pieces =>
    match hexDigit? c with
    | some digit =>
      let value := 16 * value + digit
      if digits = 3 then goOn (.string (.unit value :: pieces))
      else goOn (.unicode (digits + 1) value pieces)
    | none => fail
  | .stuck => goOn .stuck

/-- The token that the end of the text brings to an end. -/
def finish : Scan → Option Token
  | .between | .stuck => none
  | .number state =>
    match state.finish? none with
    | some numeral => some (.number numeral.value?)
    | none => some .bad
  | .word .. | .string _ | .escape _ | .unicode .. => some .bad

def isBetween : Scan → Bool
  | .between => true
  | _ => false

end Scan

/-- The tokens of the characters from `position` on, of which the first goes on from `scan`, a token
that starts at `start`. -/
def tokensFrom (scan : Scan) (start position : Position) : List Char → List Located
  | [] => scan.finish.toList.map (⟨·, start, position⟩)
  | c :: cs =>
    let next := position.after c
    let outcome := scan.step c
    let newStart := if scan.isBetween || outcome.before.isSome then position else start
    outcome.before.toList.map (⟨·, start, position⟩) ++
      outcome.ended.toList.map (⟨·, newStart, next⟩) ++
      tokensFrom outcome.scan newStart next cs

def tokens (text : String) : List Located := tokensFrom .between {} {} text.toList

end TypeEnv.Json
