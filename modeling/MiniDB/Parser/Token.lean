import MiniDB.Core.Text

/-!
# Parser/Token — the tokens of the SQL language

Seventeen keywords, names, two kinds of literal, operators and punctuation, and two special kinds:
the end of the input and a token that could not be read.
-/

namespace MiniDB.Parser

open MiniDB.Core

inductive TokenKind where
  | kwCreate | kwDatabase | kwDrop | kwUse | kwTable | kwSelect | kwFrom | kwWhere | kwDelete
  | kwInsert | kwInto | kwValues | kwUpdate | kwSet | kwPrimary | kwInt | kwString
  | identifier | intLiteral | stringLiteral
  | opEq | opLt | opGt | opStar
  | lparen | rparen | comma | semicolon
  | endOfFile | invalid
  deriving DecidableEq, Repr

structure Token where
  kind : TokenKind := .invalid
  /-- The raw text; a string literal's without its quotes. -/
  lexeme : Text := []
  line : Nat := 0
  column : Nat := 0
  /-- The value of an integer literal. -/
  intValue : Int := 0
  deriving DecidableEq, Repr

/-- A literal token: what can stand for a value. -/
def TokenKind.isLiteral : TokenKind → Bool
  | .intLiteral | .stringLiteral => true
  | _ => false

/-- A comparison operator of a WHERE clause. -/
def TokenKind.isComparison : TokenKind → Bool
  | .opEq | .opLt | .opGt => true
  | _ => false

end MiniDB.Parser
