import RoutineParams.Kind

/-!
# Reserved words

The reserved words of Transact-SQL as an ordered table, and the kind that an unquoted word has.
Words are looked up in upper case by halving the table.
-/

namespace RoutineParams

/-- The reserved words, in ascending order. -/
def reservedWords : Array String :=
  #["ADD", "ALL", "ALTER", "AND", "ANY", "AS",
    "ASC", "AUTHORIZATION", "BACKUP", "BEGIN", "BETWEEN", "BREAK",
    "BROWSE", "BULK", "BY", "CASCADE", "CASE", "CHECK",
    "CHECKPOINT", "CLOSE", "CLUSTERED", "COALESCE", "COLLATE", "COLUMN",
    "COMMIT", "COMPUTE", "CONSTRAINT", "CONTAINS", "CONTAINSTABLE", "CONTINUE",
    "CONVERT", "CREATE", "CROSS", "CURRENT", "CURRENT_DATE", "CURRENT_TIME",
    "CURRENT_TIMESTAMP", "CURRENT_USER", "CURSOR", "DATABASE", "DBCC", "DEALLOCATE",
    "DECLARE", "DEFAULT", "DELETE", "DENY", "DESC", "DISK",
    "DISTINCT", "DISTRIBUTED", "DOUBLE", "DROP", "DUMP", "ELSE",
    "END", "ERRLVL", "ESCAPE", "EXCEPT", "EXEC", "EXECUTE",
    "EXISTS", "EXIT", "EXTERNAL", "FETCH", "FILE", "FILLFACTOR",
    "FOR", "FOREIGN", "FREETEXT", "FREETEXTTABLE", "FROM", "FULL",
    "FUNCTION", "GOTO", "GRANT", "GROUP", "HAVING", "HOLDLOCK",
    "IDENTITY", "IDENTITYCOL", "IDENTITY_INSERT", "IF", "IN", "INDEX",
    "INNER", "INSERT", "INTERSECT", "INTO", "IS", "JOIN",
    "KEY", "KILL", "LEFT", "LIKE", "LINENO", "LOAD",
    "MERGE", "NATIONAL", "NOCHECK", "NONCLUSTERED", "NOT", "NULL",
    "NULLIF", "OF", "OFF", "OFFSETS", "ON", "OPEN",
    "OPENDATASOURCE", "OPENQUERY", "OPENROWSET", "OPENXML", "OPTION", "OR",
    "ORDER", "OUTER", "OVER", "PERCENT", "PIVOT", "PLAN",
    "PRECISION", "PRIMARY", "PRINT", "PROC", "PROCEDURE", "PUBLIC",
    "RAISERROR", "READ", "READTEXT", "RECONFIGURE", "REFERENCES", "REPLICATION",
    "RESTORE", "RESTRICT", "RETURN", "REVERT", "REVOKE", "RIGHT",
    "ROLLBACK", "ROWCOUNT", "ROWGUIDCOL", "RULE", "SAVE", "SCHEMA",
    "SECURITYAUDIT", "SELECT", "SEMANTICKEYPHRASETABLE", "SEMANTICSIMILARITYDETAILSTABLE",
    "SEMANTICSIMILARITYTABLE", "SESSION_USER",
    "SET", "SETUSER", "SHUTDOWN", "SOME", "STATISTICS", "SYSTEM_USER",
    "TABLE", "TABLESAMPLE", "TEXTSIZE", "THEN", "TO", "TOP",
    "TRAN", "TRANSACTION", "TRIGGER", "TRUNCATE", "TRY_CONVERT", "TSEQUAL",
    "UNION", "UNIQUE", "UNPIVOT", "UPDATE", "UPDATETEXT", "USE",
    "USER", "VALUES", "VARYING", "VIEW", "WAITFOR", "WHEN",
    "WHERE", "WHILE", "WITH", "WRITETEXT"]

/-- Whether `w` stands in the ordered table between the places `lo` and `hi`. The half that
cannot hold it is left out at every step. -/
def standsBetween (table : Array String) (w : String) (lo hi : Nat) : Bool :=
  if h : lo < hi ∧ hi ≤ table.size then
    let mid := lo + (hi - lo) / 2
    have : mid < table.size := by omega
    if table[mid] = w then true
    else if table[mid] < w then standsBetween table w (mid + 1) hi
    else standsBetween table w lo mid
  else false
termination_by hi - lo

/-- Whether a word, given in upper case, is reserved. -/
def isReservedWord (w : String) : Bool := standsBetween reservedWords w 0 reservedWords.size

/-- The kind of an unquoted word that does not start with `@`. -/
def Kind.ofWord (word : List Char) : Kind :=
  let w := String.ofList (word.map Char.toUpper)
  if w = "BEGIN" then .begin
  else if w = "DECLARE" then .declare
  else if w = "SELECT" then .select
  else if w = "SET" then .set
  else if w = "WITH" then .with
  else if w = "CREATE" then .create
  else if w = "PROC" ∨ w = "PROCEDURE" then .procedure
  else if w = "FUNCTION" then .function
  else if w = "AS" then .as
  else if w = "NULL" then .null
  else if isReservedWord w then .reserved
  else .identifier

end RoutineParams
