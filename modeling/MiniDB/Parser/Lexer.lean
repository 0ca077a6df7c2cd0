import MiniDB.Parser.Token

/-!
# Parser/Lexer — from SQL text to tokens

The lexer holds what is left of the source at `_pos`; a read past its end is the terminating NUL.
Each scanner returns its token and the lexer moved past it.  `Lexer.tokenize` runs the scanners to
the end of the text or to the first error, and appends the END_OF_FILE token.
-/

namespace MiniDB.Parser

open MiniDB.Core

/-! ## Characters and keywords -/

/-- `(c >= 'a' && c <= 'z') || (c >= 'A' && c <= 'Z') || c == '_'`. -/
def isIdentStart (c : Char) : Bool :=
  ('a' ≤ c && c ≤ 'z') || ('A' ≤ c && c ≤ 'Z') || c == '_'

/-- …and the digits, after the first character. -/
def isIdentChar (c : Char) : Bool :=
  ('a' ≤ c && c ≤ 'z') || ('A' ≤ c && c ≤ 'Z') || ('0' ≤ c && c ≤ '9') || c == '_'

/-- `if (a >= 'a' && a <= 'z') a = a - 'a' + 'A';`. -/
def upper (c : Char) : Char :=
  if 'a' ≤ c ∧ c ≤ 'z' then Char.ofNat (c.toNat - 'a'.toNat + 'A'.toNat) else c

/-- `str_eq_ci`: equal length, and equal characters up to letter case. -/
def strEqCi (s kw : Text) : Bool := s.map upper == kw.map upper

/-- The keywords, in the order they are tried. -/
def keywords : List (Text × TokenKind) :=
  [("create".toList, .kwCreate), ("database".toList, .kwDatabase), ("drop".toList, .kwDrop),
   ("use".toList, .kwUse), ("table".toList, .kwTable), ("select".toList, .kwSelect),
   ("from".toList, .kwFrom), ("where".toList, .kwWhere), ("delete".toList, .kwDelete),
   ("insert".toList, .kwInsert), ("into".toList, .kwInto), ("values".toList, .kwValues),
   ("update".toList, .kwUpdate), ("set".toList, .kwSet), ("primary".toList, .kwPrimary),
   ("int".toList, .kwInt), ("string".toList, .kwString)]

def matchKeyword (s : Text) : TokenKind :=
  match keywords.find? fun kw => strEqCi s kw.1 with
  | some kw => kw.2
  | none => .identifier

/-- The one-character tokens. -/
def punctuation : Char → Option TokenKind
  | '(' => some .lparen
  | ')' => some .rparen
  | ',' => some .comma
  | ';' => some .semicolon
  | '=' => some .opEq
  | '<' => some .opLt
  | '>' => some .opGt
  | '*' => some .opStar
  | _ => none

/-! ## The lexer -/

structure Lexer where
  /-- The source from `_pos` on. -/
  src : Text
  line : Nat := 1
  col : Nat := 1
  hasError : Bool := false
  errorMsg : Text := []
  deriving DecidableEq, Repr

namespace Lexer

/-- `_src[_pos]`. -/
def cur (l : Lexer) : Char := l.src.headD '\x00'

/-- The whitespace loop, on the source, the line and the column. -/
def skipSpaces : Text → Nat → Nat → Text × Nat × Nat
  | [], line, col => ([], line, col)
  | c :: s, line, col =>
    if c == ' ' || c == '\t' || c == '\r' then skipSpaces s line (col + 1)
    else if c == '\n' then skipSpaces s (line + 1) 1
    else (c :: s, line, col)

def skipWhitespace (l : Lexer) : Lexer :=
  let (src, line, col) := skipSpaces l.src l.line l.col
  { l with src, line, col }

def scanIdentifierOrKeyword (l : Lexer) : Token × Lexer :=
  let lexeme := l.src.takeWhile isIdentChar
  ({ kind := matchKeyword lexeme, lexeme, line := l.line, column := l.col },
   { l with src := l.src.dropWhile isIdentChar, col := l.col + lexeme.length })

/-- `value = value * 10 + digit` over the digits, in 32-bit arithmetic. -/
def numberValue (digits : Text) : Int :=
  digits.foldl (fun value c => toInt32 (value * 10 + (c.toNat - '0'.toNat : Nat))) 0

def scanNumber (l : Lexer) : Token × Lexer :=
  let lexeme := l.src.takeWhile isDigit
  ({ kind := .intLiteral, lexeme, intValue := numberValue lexeme, line := l.line,
     column := l.col },
   { l with src := l.src.dropWhile isDigit, col := l.col + lexeme.length })

/-- The opening quote has been seen; there are no escapes, and a line break is content. -/
def scanString (l : Lexer) : Token × Lexer :=
  let startCol := l.col
  let content := l.src.tail.takeWhile (· != '"')
  let l := { l with src := l.src.tail.dropWhile (· != '"'), col := l.col + 1 + content.length }
  if l.cur == '\x00' then
    ({ kind := .invalid, line := l.line, column := startCol },
     { l with hasError := true, errorMsg := "Unterminated string literal".toList })
  else
    ({ kind := .stringLiteral, lexeme := content, line := l.line, column := startCol },
     { l with src := l.src.tail, col := l.col + 1 })

def scanToken (l : Lexer) : Token × Lexer :=
  let c := l.cur
  match punctuation c with
  | some kind =>
    ({ kind, lexeme := [c], line := l.line, column := l.col },
     { l with src := l.src.tail, col := l.col + 1 })
  | none =>
    if c == '"' then l.scanString
    else if isDigit c then l.scanNumber
    else if isIdentStart c then l.scanIdentifierOrKeyword
    else
      ({ kind := .invalid, line := l.line, column := l.col },
       { l with hasError := true
                errorMsg := "Unexpected character: '".toList ++ [c, '\''] })

/-- The main loop; every round but the last consumes a character, so the length of the text bounds
the number of rounds. -/
def tokenizeLoop : Nat → Lexer → List Token → List Token × Lexer
  | 0, l, tokens => (tokens, l)
  | n + 1, l, tokens =>
    if l.cur == '\x00' || l.hasError then (tokens, l)
    else
      let l := l.skipWhitespace
      if l.cur == '\x00' then (tokens, l)
      else
        let (tok, l) := l.scanToken
        if l.hasError then (tokens ++ [tok], l)
        else tokenizeLoop n l (tokens ++ [tok])

/-- The tokens of `sql`, END_OF_FILE last, and the lexer that read them: its error flag and message
say whether they are all of the text. -/
def tokenize (sql : Text) : List Token × Lexer :=
  let src := cString sql
  let (tokens, l) := tokenizeLoop src.length { src } []
  (tokens ++ [{ kind := .endOfFile, line := l.line, column := l.col }], l)

end Lexer

end MiniDB.Parser
