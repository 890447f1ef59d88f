import ClusterQuery.Json.Number
import ClusterQuery.Json.Piece
import ClusterQuery.Text.Symbol

/-!
# JSON tokens

The lexer reads symbols one by one. Its mode says what it is inside of, and a word or a
number ends at the first symbol that cannot extend it. A string that denotes no text is a
token without one.
-/

namespace ClusterQuery.Json

inductive Token
  | openList
  | closeList
  | openObject
  | closeObject
  | comma
  | colon
  | null
  | bool (b : Bool)
  | number (n : Number)
  | string (text : Option String)
  deriving DecidableEq, Repr

/-- What the lexer is inside of; what it has read of that is kept newest first. -/
inductive Mode
  | between
  | word (done : List Char)
  | number (done : List Char)
  | string (done : List Piece)
  | escape (done : List Piece)
  | hex (more : Nat) (value : Nat) (done : List Piece)
  deriving DecidableEq, Repr

/-- The tokens read so far, newest first, and the mode. -/
structure Lexer where
  tokens : List Token := []
  mode : Mode := .between
  deriving DecidableEq, Repr

def isSpace (c : Char) : Bool :=
  c == ' ' || c == '\t' || c == '\n' || c == '\r'

def isWordChar (c : Char) : Bool :=
  'a' ≤ c && c ≤ 'z'

def isNumberChar (c : Char) : Bool :=
  c.isDigit || c == '-' || c == '+' || c == '.' || c == 'e' || c == 'E'

def wordToken? : List Char → Option Token
  | ['n', 'u', 'l', 'l'] => some .null
  | ['t', 'r', 'u', 'e'] => some (.bool true)
  | ['f', 'a', 'l', 's', 'e'] => some (.bool false)
  | _ => none

namespace Lexer

/-- Reads a symbol that stands between tokens. -/
def start (tokens : List Token) : Symbol → Option Lexer
  | .stray => none
  | .char c =>
    if isSpace c then some ⟨tokens, .between⟩
    else if c = '[' then some ⟨.openList :: tokens, .between⟩
    else if c = ']' then some ⟨.closeList :: tokens, .between⟩
    else if c = '{' then some ⟨.openObject :: tokens, .between⟩
    else if c = '}' then some ⟨.closeObject :: tokens, .between⟩
    else if c = ',' then some ⟨.comma :: tokens, .between⟩
    else if c = ':' then some ⟨.colon :: tokens, .between⟩
    else if c = '"' then some ⟨tokens, .string []⟩
    else if c = '-' ∨ c.isDigit then some ⟨tokens, .number [c]⟩
    else if isWordChar c then some ⟨tokens, .word [c]⟩
    else none

def stringStep (tokens : List Token) (done : List Piece) : Symbol → Option Lexer
  | .stray => some ⟨tokens, .string (.stray :: done)⟩
  | .char c =>
    if c = '"' then
      some ⟨.string ((Piece.decode? done.reverse).map String.ofList) :: tokens, .between⟩
    else if c = '\\' then some ⟨tokens, .escape done⟩
    else if c.toNat < 0x20 then none
    else some ⟨tokens, .string (.char c :: done)⟩

def escapeStep (tokens : List Token) (done : List Piece) : Symbol → Option Lexer
  | .stray => none
  | .char c =>
    if c = 'u' then some ⟨tokens, .hex 3 0 done⟩
    else (escaped? c).map fun e => ⟨tokens, .string (.char e :: done)⟩

/-- Reads one of the hexadecimal digits of an escaped code unit; `more` of them follow it. -/
def hexStep (tokens : List Token) (more value : Nat) (done : List Piece) : Symbol → Option Lexer
  | .stray => none
  | .char c =>
    (hexValue? c).map fun digit =>
      match more with
      | 0 => ⟨tokens, .string (.unit (value * 16 + digit) :: done)⟩
      | more + 1 => ⟨tokens, .hex more (value * 16 + digit) done⟩

/-- Ends the word or the number that the lexer is inside of. -/
def close (l : Lexer) : Option (List Token) :=
  match l.mode with
  | .between => some l.tokens
  | .word done => (wordToken? done.reverse).map (· :: l.tokens)
  | .number done => (Number.ofChars? done.reverse).map fun n => .number n :: l.tokens
  | _ => none

def step (l : Lexer) (s : Symbol) : Option Lexer :=
  match l.mode with
  | .string done => stringStep l.tokens done s
  | .escape done => escapeStep l.tokens done s
  | .hex more value done => hexStep l.tokens more value done s
  | .between => start l.tokens s
  | .word done =>
    match s with
    | .char c =>
      if isWordChar c then some ⟨l.tokens, .word (c :: done)⟩
      else (close l).bind fun tokens => start tokens s
    | .stray => none
  | .number done =>
    match s with
    | .char c =>
      if isNumberChar c then some ⟨l.tokens, .number (c :: done)⟩
      else (close l).bind fun tokens => start tokens s
    | .stray => none

end Lexer

/-- The tokens of a text. -/
def tokens? (symbols : List Symbol) : Option (List Token) := do
  let lexer ← symbols.foldlM Lexer.step {}
  let tokens ← lexer.close
  return tokens.reverse

end ClusterQuery.Json
