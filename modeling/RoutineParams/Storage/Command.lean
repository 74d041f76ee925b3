import RoutineParams.Storage.Record

/-!
# Commands that make tables

A file tells the form of a table by the command that made the table, and the columns of an index by
the command that made the index. Of both only what the rows depend on is read: columns with their
kinds of values, and keys.

    wordsOf s                         the words of the command `s`
    TableForm.ofCommand s             the form of the table that `s` makes
    indexedOf s                       the columns of the index that `s` makes
-/

namespace RoutineParams.Storage

/-! ## Words -/

/-- A word of a command. Brackets and commas are words of their own. -/
structure Word where
  text : String
  isQuoted : Bool
deriving DecidableEq, Repr

/-- What the reader of a command is in: a word or quotes, whose characters are read so far (last one
first), a note, or none of them. -/
inductive Scanning where
  | between
  | bare (done : List Char)
  | quoted (stop : Char) (done : List Char)
  /-- Before a quote that stands for itself. -/
  | doubled (stop : Char) (done : List Char)
  | lineNote
  | note
  /-- Before the last character of a note. -/
  | noteEnd

/-- The character that ends the quotes that a character begins. -/
def quoteStop? (c : Char) : Option Char :=
  if c = '"' ∨ c = '\'' ∨ c = Char.ofNat 0x60 then some c
  else if c = '[' then some ']'
  else none

def isMark (c : Char) : Bool := c == '(' || c == ')' || c == ',' || c == ';'

/-- What a character outside words, quotes and notes leads to. -/
def Scanning.begin (c : Char) (next : Option Char) : List Word × Scanning :=
  if c.isWhitespace then ([], .between)
  else if c = '-' ∧ next = some '-' then ([], .lineNote)
  else if c = '/' ∧ next = some '*' then ([], .note)
  else if isMark c then ([⟨c.toString, false⟩], .between)
  else
    match quoteStop? c with
    | some stop => ([], .quoted stop [])
    | none => ([], .bare [c])

/-- The word whose characters are read, the last one first. -/
def wordOf (isQuoted : Bool) (done : List Char) : Word := ⟨String.ofList done.reverse, isQuoted⟩

/-- The words that are complete with a character, and what the reader is in after it. -/
def Scanning.step (s : Scanning) (c : Char) (next : Option Char) : List Word × Scanning :=
  match s with
  | between => begin c next
  | bare done =>
    if c.isWhitespace ∨ isMark c ∨ (quoteStop? c).isSome then
      let (words, s) := begin c next
      (wordOf false done :: words, s)
    else ([], bare (c :: done))
  | quoted stop done =>
    if c ≠ stop then ([], quoted stop (c :: done))
    else if next = some stop ∧ stop ≠ ']' then ([], doubled stop done)
    else ([wordOf true done], between)
  | doubled stop done => ([], quoted stop (c :: done))
  | lineNote => ([], if c = '\n' then between else lineNote)
  | note => ([], if c = '*' ∧ next = some '/' then noteEnd else note)
  | noteEnd => ([], between)

/-- The words that follow, for a reader in `s`. -/
def wordsFrom (s : Scanning) : List Char → List Word
  | [] =>
    match s with
    | .bare done => [wordOf false done]
    | _ => []
  | c :: rest =>
    let (words, s) := s.step c rest.head?
    words ++ wordsFrom s rest

def wordsOf (command : String) : List Word := wordsFrom .between command.toList

namespace Word

def isThe (w : Word) (mark : String) : Bool := !w.isQuoted && w.text == mark

/-- A word that may be one of the language, in upper case. Quoted words are none. -/
def keyword (w : Word) : String := if w.isQuoted then "" else w.text.toUpper

end Word

/-- The items between commas, up to the bracket that closes the list, and the words after it. The
item `item` (last word first) is read already, and lies in `depth` brackets. -/
def readList (depth : Nat) (item : List Word) : List Word → List (List Word) × List Word
  | [] => ([item.reverse], [])
  | w :: ws =>
    if w.isThe "(" then readList (depth + 1) (w :: item) ws
    else if w.isThe ")" then
      match depth with
      | 0 => ([item.reverse], ws)
      | depth + 1 => readList depth (w :: item) ws
    else if w.isThe "," ∧ depth = 0 then
      let (items, rest) := readList 0 [] ws
      (item.reverse :: items, rest)
    else readList depth (w :: item) ws

/-- The items of the first list in brackets, and the words after it. -/
def firstList (ws : List Word) : List (List Word) × List Word :=
  readList 0 [] ((ws.dropWhile fun w => !w.isThe "(").drop 1)

/-- The words of an item that lie in no brackets. -/
def outerWords (depth : Nat) : List Word → List Word
  | [] => []
  | w :: ws =>
    if w.isThe "(" then outerWords (depth + 1) ws
    else if w.isThe ")" then outerWords (depth - 1) ws
    else if depth = 0 then w :: outerWords 0 ws
    else outerWords depth ws

/-- The first words of the items of the first list in brackets. -/
def namesIn (ws : List Word) : List String :=
  (firstList ws).1.filterMap fun item => item.head?.map Word.text

/-- Whether two names are the same up to the case of letters. -/
def sameName (a b : String) : Bool := a.toLower == b.toLower

/-! ## Columns -/

/-- What a column makes of the values that are put into it. -/
inductive Affinity where
  | text
  | numeric
  | integer
  | real
  | blob
deriving DecidableEq, Repr

def Affinity.ofType (type : String) : Affinity :=
  let has (part : String) : Bool := 1 < (type.splitOn part).length
  if has "INT" then integer
  else if has "CHAR" || has "CLOB" || has "TEXT" then text
  else if has "BLOB" || type == "" then blob
  else if has "REAL" || has "FLOA" || has "DOUB" then real
  else numeric

structure Column where
  name : String
  /-- The name of its type in upper case. -/
  type : String
  /-- Whether it cannot be null. -/
  isRequired : Bool
  /-- Its value in rows that have none for it. -/
  default : Value

def Column.affinity (c : Column) : Affinity := .ofType c.type

/-- The words that end the type of a column. -/
def constraintWords : List String :=
  ["CONSTRAINT", "PRIMARY", "NOT", "NULL", "UNIQUE", "CHECK", "DEFAULT", "COLLATE", "REFERENCES",
   "GENERATED", "AS"]

/-- Whether words have `first` and `second` one after the other. -/
def hasPair (first second : String) : List String → Bool
  | a :: b :: ws => (a == first && b == second) || hasPair first second (b :: ws)
  | _ => false

def Word.value (w : Word) : Value :=
  if w.isQuoted then .text w.text
  else
    match w.text.toInt?, w.keyword with
    | some n, _ => .int (Int64.ofInt n)
    | none, "TRUE" => .int 1
    | none, "FALSE" => .int 0
    | none, _ => .null

/-- The value after the word for a standard value, which may be in brackets. -/
def defaultIn (ws : List Word) : Value :=
  match (ws.dropWhile fun w => w.keyword != "DEFAULT").drop 1 with
  | [] => .null
  | w :: rest => if w.isThe "(" then (rest.head?.map Word.value).getD .null else w.value

def Column.ofItem (item : List Word) : Column :=
  let rest := item.drop 1
  let type := (rest.takeWhile fun w => !constraintWords.contains w.keyword).map Word.keyword
  { name := (item.head?.map Word.text).getD ""
    type := " ".intercalate type
    isRequired := hasPair "NOT" "NULL" ((outerWords 0 rest).map Word.keyword)
    default := defaultIn rest }

/-! ## Tables -/

/-- The form of a table; columns are told by their places. -/
structure TableForm where
  columns : List Column
  /-- The column that holds the numbers of rows, if one does. -/
  numbers? : Option Nat
  /-- The columns by which rows are kept in order if they have no numbers. -/
  order? : Option (List Nat)
  /-- The columns that no two rows share, for each such rule. -/
  keys : List (List Nat)

/-- A key that an item of a definition sets. -/
structure KeyItem where
  isPrimary : Bool
  columns : List String

/-- The words with which an item starts that is no column. -/
def ruleWords : List String := ["CONSTRAINT", "PRIMARY", "UNIQUE", "CHECK", "FOREIGN"]

def isColumnItem (item : List Word) : Bool :=
  !((item.head?.map Word.keyword).any ruleWords.contains) && !item.isEmpty

def keysOfItem (item : List Word) : List KeyItem :=
  let outer := (outerWords 0 item).map Word.keyword
  let isPrimary := hasPair "PRIMARY" "KEY" outer
  let columns := if isColumnItem item then (item.head?.map Word.text).toList else namesIn item
  (if isPrimary then [⟨true, columns⟩] else []) ++
    (if outer.contains "UNIQUE" then [⟨false, columns⟩] else [])

namespace TableForm

/-- Where a column stands among columns. -/
def placeIn? (columns : List Column) (name : String) : Option Nat :=
  columns.findIdx? fun c => sameName c.name name

/-- The form of the table that a command makes. A primary key of one column of whole numbers is no
key of its own but the number of the row; the order of a table whose rows have no numbers is that of
its primary key. -/
def ofCommand (command : String) : TableForm :=
  let (items, rest) := firstList (wordsOf command)
  let columns := (items.filter isColumnItem).map Column.ofItem
  let keyItems := items.flatMap keysOfItem
  let places (k : KeyItem) : List Nat := k.columns.filterMap (placeIn? columns)
  let primary? := keyItems.find? KeyItem.isPrimary
  let hasNumbers := !hasPair "WITHOUT" "ROWID" (rest.map Word.keyword)
  let numbers? :=
    match primary?.map places with
    | some [i] =>
      if hasNumbers ∧ (columns[i]?.map Column.type) = some "INTEGER" then some i else none
    | _ => none
  let keys := (keyItems.filter fun k => !(k.isPrimary && numbers?.isSome)).map places
  { columns
    numbers?
    order? := if hasNumbers then none else primary?.map places
    keys := keys.eraseDups }

def place? (f : TableForm) (name : String) : Option Nat := placeIn? f.columns name

end TableForm

/-- The columns of the index that a command makes, and whether no two rows share them. -/
def indexedOf (command : String) : List String × Bool :=
  let words := wordsOf command
  (namesIn words, (words[1]?.map Word.keyword) == some "UNIQUE")

end RoutineParams.Storage
