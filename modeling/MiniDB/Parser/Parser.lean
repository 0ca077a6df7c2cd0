import MiniDB.Machinery.Reader
import MiniDB.Parser.Ast
import MiniDB.Parser.Lexer

/-!
# Parser/Parser — the recursive-descent parser

A parsing function reads the tokens from `_pos` on; `return make_error(..)` is an early exit with an
INVALID statement, and a read past the token vector has no value.  The source tests for a token and
then advances over it: `onToken` is that pair, `need` the pair with `make_error` as the alternative.
A function selected by a keyword starts behind it, its caller having advanced over the keyword.
-/

namespace MiniDB.Parser

open MiniDB.Core Reader

/-- A parsing function: reads tokens, and may exit early with a statement. -/
abbrev ParserM := Reader Token SQLStatement

/-! ## Helpers -/

def isAtEnd : ParserM Bool := do
  return (← peek).kind == .endOfFile

def check (kind : TokenKind) : ParserM Bool := do
  if ← isAtEnd then return false
  else return (← peek).kind == kind

/-- `make_error`: an INVALID statement whose message starts with the position of the next token. -/
def makeError (msg : String) : ParserM SQLStatement := do
  let tok ← peek
  return { errorMsg := snprintf 512 ("Line ".toList ++ natText tok.line ++ ":".toList
    ++ natText tok.column ++ ": ".toList ++ msg.toList) }

/-- `return make_error(msg);`. -/
def fail {α : Type} (msg : String) : ParserM α := do
  throw (← makeError msg)

/-- `if (check(kind)) { Token tok = advance(); yes } else { no }`. -/
def onToken {α : Type} (kind : TokenKind) (yes : Token → ParserM α) (no : ParserM α) :
    ParserM α := do
  if ← check kind then do
    let tok ← advance
    yes tok
  else no

/-- `if (!check(kind)) return make_error(msg);`, then `advance()`. -/
def need (kind : TokenKind) (msg : String) : ParserM Token :=
  onToken kind (fun tok => return tok) (fail msg)

/-- `if (check(kind)) return make_error(msg);`. -/
def refuse {α : Type} (kind : TokenKind) (msg : String) (go : ParserM α) : ParserM α := do
  if ← check kind then fail msg else go

/-- `if (check(TokenKind::SEMICOLON)) advance();`. -/
def optionalSemicolon : ParserM Unit :=
  onToken .semicolon (fun _ => return ()) (return ())

/-! ## Values, conditions and column definitions -/

/-- The text of a literal and whether it is an integer.  With no literal there the result is the
empty string, and nothing is consumed. -/
def parseValueString : ParserM (Text × Bool) :=
  onToken .intLiteral (fun tok => return (tok.lexeme, true)) <|
  onToken .stringLiteral (fun tok => return (tok.lexeme, false)) <|
  return ([], false)

/-- The operator and the constant of a condition on the column `colTok`. -/
def parseComparison (colTok : Token) : ParserM WhereClause :=
  let constant (opTok : Token) : ParserM WhereClause := do
    let (value, isInt) ← parseValueString
    return { column := colTok.lexeme, op := opTok.lexeme, constValue := value,
             isIntLiteral := isInt }
  onToken .opEq constant <| onToken .opLt constant <| onToken .opGt constant <| return {}

/-- An empty column name says that parsing failed. -/
def parseWhereClause : ParserM WhereClause :=
  onToken .identifier parseComparison (return {})

/-- The type of the column `nameTok`, and the optional PRIMARY. -/
def parseColumnType (nameTok : Token) : ParserM ColumnDef :=
  let primary (typeTok : Token) : ParserM ColumnDef :=
    onToken .kwPrimary
      (fun _ => return { name := nameTok.lexeme, type := typeTok.lexeme, isPrimary := true })
      (return { name := nameTok.lexeme, type := typeTok.lexeme, isPrimary := false })
  onToken .kwInt primary <| onToken .kwString primary <| return {}

/-- An empty name says that parsing failed. -/
def parseColumnDef : ParserM ColumnDef :=
  onToken .identifier parseColumnType (return {})

/-! ## CREATE, DROP and USE -/

/-- The rounds of a comma loop: an item, then `)` to end it or `,` to go on. -/
def commaLoop {α : Type} (item : ParserM α) (msg : String) : Nat → ParserM (List α)
  | 0 => fun _ _ => .outOfRange
  | k + 1 => do
    let x ← item
    onToken .rparen (fun _ => return [x]) <|
    onToken .comma (fun _ => do return x :: (← commaLoop item msg k)) <|
    fail msg

/-- `while (true) { .. }` over comma-separated items, up to the closing parenthesis. -/
def commaList {α : Type} (item : ParserM α) (msg : String) : ParserM (List α) :=
  fun n ts => commaLoop item msg n n ts

/-- One round of the column loop: a definition with an empty name is an error. -/
def columnItem : ParserM ColumnDef := do
  let col ← parseColumnDef
  if col.name.isEmpty then fail "Expected column name in CREATE TABLE"
  else return col

/-- The optional semicolon in front of the `return`. -/
def finish (stmt : SQLStatement) : ParserM SQLStatement := do
  optionalSemicolon
  return stmt

def parseCreateDatabase : ParserM SQLStatement := do
  let nameTok ← need .identifier "Expected database name after 'CREATE DATABASE'"
  finish { kind := .createDatabase, createDatabase := { databaseName := nameTok.lexeme } }

def parseCreateTable : ParserM SQLStatement := do
  let tableTok ← need .identifier "Expected table name after 'CREATE TABLE'"
  let _ ← need .lparen "Expected '(' after table name in CREATE TABLE"
  refuse .rparen "Expected at least one column definition in CREATE TABLE" do
    let columns ← commaList columnItem "Expected ',' or ')' in column list"
    if 1 < columns.countP ColumnDef.isPrimary then
      fail "Only one primary key column is allowed per table"
    else
      finish { kind := .createTable, createTable := { tableName := tableTok.lexeme, columns } }

def parseCreate : ParserM SQLStatement :=
  onToken .kwDatabase (fun _ => parseCreateDatabase) <|
  onToken .kwTable (fun _ => parseCreateTable) <|
  fail "Expected 'DATABASE' or 'TABLE' after 'CREATE'"

def parseDropDatabase : ParserM SQLStatement := do
  let nameTok ← need .identifier "Expected database name after 'DROP DATABASE'"
  finish { kind := .dropDatabase, dropDatabase := { databaseName := nameTok.lexeme } }

def parseDropTable : ParserM SQLStatement := do
  let tableTok ← need .identifier "Expected table name after 'DROP TABLE'"
  finish { kind := .dropTable, dropTable := { tableName := tableTok.lexeme } }

def parseDrop : ParserM SQLStatement :=
  onToken .kwDatabase (fun _ => parseDropDatabase) <|
  onToken .kwTable (fun _ => parseDropTable) <|
  fail "Expected 'DATABASE' or 'TABLE' after 'DROP'"

def parseUse : ParserM SQLStatement := do
  let nameTok ← need .identifier "Expected database name after 'USE'"
  finish { kind := .use, useStmt := { databaseName := nameTok.lexeme } }

/-! ## SELECT, DELETE, INSERT and UPDATE -/

/-- The optional condition of a statement; `add` puts it in.  If the clause cannot be parsed the
statement is returned as it stands, INVALID. -/
def optionalWhere (stmt : SQLStatement) (add : WhereClause → SQLStatement) : ParserM SQLStatement :=
  onToken .kwWhere
    (fun _ => do
      let wc ← parseWhereClause
      if wc.column.isEmpty then
        throw { stmt with kind := .invalid, errorMsg := "Error parsing WHERE clause".toList }
      else return add wc)
    (return stmt)

/-- The optional condition, then the optional semicolon. -/
def finishWhere (stmt : SQLStatement) (add : WhereClause → SQLStatement) : ParserM SQLStatement := do
  let stmt ← optionalWhere stmt add
  finish stmt

/-- `<column>`: a name or `*`. -/
def selectColumn : ParserM Token :=
  onToken .identifier (fun tok => return tok) <|
  onToken .opStar (fun tok => return tok) <|
  fail "Expected column name or '*' after SELECT"

def selectOf (col table : Token) : SelectStmt :=
  { columnName := col.lexeme, tableName := table.lexeme, hasWhere := false }

def parseSelect : ParserM SQLStatement := do
  let colTok ← selectColumn
  let _ ← need .kwFrom "Expected 'FROM' after column in SELECT"
  let tableTok ← need .identifier "Expected table name after 'FROM'"
  finishWhere { kind := .select, selectStmt := selectOf colTok tableTok } fun wc =>
    { kind := .select, selectStmt := { selectOf colTok tableTok with hasWhere := true, cond := wc } }

def parseDelete : ParserM SQLStatement := do
  let _ ← need .kwFrom "Expected 'FROM' after 'DELETE'"
  let tableTok ← need .identifier "Expected table name after 'DELETE FROM'"
  finishWhere { kind := .delete, deleteStmt := { tableName := tableTok.lexeme } } fun wc =>
    { kind := .delete,
      deleteStmt := { tableName := tableTok.lexeme, hasWhere := true, cond := wc } }

def parseInsert : ParserM SQLStatement := do
  let _ ← need .kwInto "Expected 'INTO' after 'INSERT'"
  let tableTok ← need .identifier "Expected table name after 'INSERT INTO'"
  let _ ← need .kwValues "Expected 'VALUES' after table name in INSERT"
  let _ ← need .lparen "Expected '(' after 'VALUES'"
  refuse .rparen "Expected at least one value in INSERT VALUES" do
    let vals ← commaList parseValueString "Expected ',' or ')' in VALUES list"
    finish { kind := .insert, insertStmt :=
      { tableName := tableTok.lexeme, values := vals.map Prod.fst, isInt := vals.map Prod.snd } }

def updateOf (table col : Token) (value : Text × Bool) : UpdateStmt :=
  { tableName := table.lexeme, setColumn := col.lexeme, setValue := value.1,
    setIsInt := value.2, hasWhere := false }

def parseUpdate : ParserM SQLStatement := do
  let tableTok ← need .identifier "Expected table name after 'UPDATE'"
  let _ ← need .kwSet "Expected 'SET' after table name in UPDATE"
  let colTok ← need .identifier "Expected column name after 'SET'"
  let _ ← need .opEq "Expected '=' after column name in SET clause"
  let value ← parseValueString
  finishWhere { kind := .update, updateStmt := updateOf tableTok colTok value } fun wc =>
    { kind := .update,
      updateStmt := { updateOf tableTok colTok value with hasWhere := true, cond := wc } }

/-! ## The parser -/

/-- The `switch` over the statement keyword. -/
def parseKeyword : ParserM SQLStatement :=
  onToken .kwCreate (fun _ => parseCreate) <|
  onToken .kwDrop (fun _ => parseDrop) <|
  onToken .kwUse (fun _ => parseUse) <|
  onToken .kwSelect (fun _ => parseSelect) <|
  onToken .kwDelete (fun _ => parseDelete) <|
  onToken .kwInsert (fun _ => parseInsert) <|
  onToken .kwUpdate (fun _ => parseUpdate) <|
  fail "Unexpected token, expected a SQL statement keyword"

def parseStatement : ParserM SQLStatement := do
  if ← isAtEnd then fail "Empty input, expected an SQL statement" else parseKeyword

/-- `Parser::parse(tokens)`, with the tokens it leaves; every round of a loop takes a token, so the
length of the vector bounds the rounds. -/
def parseTokens (tokens : List Token) : Outcome Token SQLStatement SQLStatement :=
  parseStatement tokens.length tokens

/-- The statement a parse returns, INVALID or not; none if the parser read past the vector. -/
def statementOf : Outcome Token SQLStatement SQLStatement → Option SQLStatement
  | .ok stmt _ => some stmt
  | .error stmt => some stmt
  | .outOfRange => none

/-- `Parser::parse(sql)`. -/
def parse (sql : Text) : Option SQLStatement :=
  let (tokens, lexer) := Lexer.tokenize sql
  if lexer.hasError then some { errorMsg := lexer.errorMsg }
  else statementOf (parseTokens tokens)

theorem parse_of_noError {sql : Text} (herr : (Lexer.tokenize sql).2.hasError = false) :
    parse sql = statementOf (parseTokens (Lexer.tokenize sql).1) := by
  simp [parse, herr]

end MiniDB.Parser
