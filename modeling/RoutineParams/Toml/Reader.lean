import RoutineParams.Text.Decimal
import RoutineParams.Text.DoubleRange
import RoutineParams.Text.Hexadecimal
import RoutineParams.Toml.Document

/-!
# Reading TOML

A text is read as a document of TOML 1.0, or not at all. A byte order mark at the front does not
count. Arrays and tables between braces may lie in one another up to `maxDepth` levels deep, and a
dotted key has no more parts than that.

    parse? s                          the entries of the document that `s` writes
-/

namespace RoutineParams.Toml

/-! ## Characters -/

/-- How many arrays and tables between braces may lie around a value. -/
def maxDepth : Nat := 79

/-- A blank within a line. -/
def isSpace (c : Char) : Bool := c == ' ' || c == '\t'

/-- A character that may stand in a comment or a literal string. -/
def isText (c : Char) : Bool := c == '\t' || (0x20 ≤ c.toNat && c.toNat != 0x7f)

/-- A character of a key without quotes. -/
def isBare (c : Char) : Bool := c.isAlphanum || c == '_' || c == '-'

def skipSpace (s : List Char) : List Char := s.dropWhile isSpace

def afterNewline? : List Char → Option (List Char)
  | '\n' :: s => some s
  | '\r' :: '\n' :: s => some s
  | _ => none

/-- The text after the comment at the front, if any. -/
def skipComment : List Char → List Char
  | '#' :: s => s.dropWhile isText
  | s => s

/-- The text after the end of a line, which may hold a comment and be the last one. -/
def endLine? (s : List Char) : Option (List Char) :=
  match skipComment (skipSpace s) with
  | [] => some []
  | s => afterNewline? s

/-- The text after blanks, line ends and comments; each comment ends with its line. There are at
most `fuel` lines. -/
def skipLines? (fuel : Nat) (s : List Char) : Option (List Char) :=
  match fuel, skipSpace s with
  | _, [] => some []
  | 0, s => some s
  | fuel + 1, c :: s =>
    if c = '#' then (afterNewline? (s.dropWhile isText)).bind (skipLines? fuel)
    else if c = '\n' ∨ c = '\r' then (afterNewline? (c :: s)).bind (skipLines? fuel)
    else some (c :: s)

/-! ## Strings -/

def hexChar? (digits : List Char) : Option Char := do
  let n ← readHex? digits
  if n < 0xD800 ∨ (0xE000 ≤ n ∧ n < 0x110000) then some (Char.ofNat n) else none

/-- The character of a one-letter escape. -/
def unescape? (c : Char) : Option Char :=
  if c = '"' ∨ c = '\\' then some c
  else if c = 'b' then some '\x08'
  else if c = 't' then some '\t'
  else if c = 'n' then some '\n'
  else if c = 'f' then some '\x0c'
  else if c = 'r' then some '\r'
  else none

/-- The character that an escape stands for, after its backslash, and how many characters long
the escape is less one. -/
def escape? : List Char → Option (Char × Nat)
  | [] => none
  | c :: s =>
    if c = 'u' then if s.length < 4 then none else (hexChar? (s.take 4)).map (·, 4)
    else if c = 'U' then if s.length < 8 then none else (hexChar? (s.take 8)).map (·, 8)
    else (unescape? c).map (·, 0)

/-- Reads a string in double quotes after the first one, with the characters `done` (last one
first) already read. -/
def readBasic (done : List Char) : List Char → Option (String × List Char)
  | [] => none
  | c :: s =>
    if c = '"' then some (String.ofList done.reverse, s)
    else if c = '\\' then
      match escape? s with
      | some (d, n) => readBasic (d :: done) (s.drop (n + 1))
      | none => none
    else if isText c then readBasic (c :: done) s
    else none
termination_by s => s.length
decreasing_by all_goals (simp only [List.length_drop, List.length_cons]; omega)

/-- Reads a string in single quotes after the first one. -/
def readLiteral (done : List Char) : List Char → Option (String × List Char)
  | [] => none
  | c :: s =>
    if c = '\'' then some (String.ofList done.reverse, s)
    else if isText c then readLiteral (c :: done) s
    else none

/-- After three quotes that end a string: up to two more of them belong to it. -/
def closeLong (quote : Char) (done s : List Char) : String × List Char :=
  let more := min 2 (s.takeWhile (· == quote)).length
  (String.ofList (List.replicate more quote ++ done).reverse, s.drop more)

/-- How many characters after a backslash are left out because they, the backslash and the line
end among them, only continue a line; 0 if there is no line end. -/
def continuation (s : List Char) : Nat :=
  let blanks := (s.takeWhile isSpace).length
  match afterNewline? (s.drop blanks) with
  | none => 0
  | some t =>
    s.length - (afterLines t.length t).length
where
  /-- A text less its leading blanks and line ends. -/
  afterLines (fuel : Nat) (s : List Char) : List Char :=
    match fuel with
    | 0 => s
    | fuel + 1 =>
      match afterNewline? (skipSpace s) with
      | some t => afterLines fuel t
      | none => skipSpace s

/-- Reads a string in three double quotes after them. -/
def readLongBasic (done : List Char) : List Char → Option (String × List Char)
  | [] => none
  | '"' :: '"' :: '"' :: s => some (closeLong '"' done s)
  | '\\' :: s =>
    match continuation s with
    | 0 =>
      match escape? s with
      | some (d, n) => readLongBasic (d :: done) (s.drop (n + 1))
      | none => none
    | n + 1 => readLongBasic done (s.drop (n + 1))
  | '\r' :: '\n' :: s => readLongBasic ('\n' :: done) s
  | c :: s => if c = '\n' ∨ isText c then readLongBasic (c :: done) s else none
termination_by s => s.length
decreasing_by all_goals (simp only [List.length_drop, List.length_cons]; omega)

/-- Reads a string in three single quotes after them. -/
def readLongLiteral (done : List Char) : List Char → Option (String × List Char)
  | [] => none
  | '\'' :: '\'' :: '\'' :: s => some (closeLong '\'' done s)
  | '\r' :: '\n' :: s => readLongLiteral ('\n' :: done) s
  | c :: s => if c = '\n' ∨ isText c then readLongLiteral (c :: done) s else none

/-- A text less a line end at the front. -/
def skipNewline (s : List Char) : List Char := (afterNewline? s).getD s

def readString? : List Char → Option (String × List Char)
  | '"' :: '"' :: '"' :: s => readLongBasic [] (skipNewline s)
  | '\'' :: '\'' :: '\'' :: s => readLongLiteral [] (skipNewline s)
  | '"' :: s => readBasic [] s
  | '\'' :: s => readLiteral [] s
  | _ => none

/-! ## Keys -/

def readPart? : List Char → Option (String × List Char)
  | '"' :: s => readBasic [] s
  | '\'' :: s => readLiteral [] s
  | s =>
    match s.takeWhile isBare with
    | [] => none
    | bare => some (String.ofList bare, s.dropWhile isBare)

/-- The key at the front as the parts before its last one and that one. It has at most `fuel`
parts. -/
def readKey? (fuel : Nat) (s : List Char) : Option ((List String × String) × List Char) :=
  match fuel with
  | 0 => none
  | fuel + 1 => do
    let (part, s) ← readPart? (skipSpace s)
    match skipSpace s with
    | '.' :: s =>
      let ((path, last), s) ← readKey? fuel s
      some ((part :: path, last), s)
    | s => some (([], part), s)

/-! ## Numbers and dates -/

/-- The text after the digits at the front that satisfy `p`, of which there must be one; an
underscore may stand between two of them. -/
def afterDigits? (p : Char → Bool) : List Char → Option (List Char)
  | [] => none
  | c :: s => if p c then some (more s) else none
where
  /-- A text less its leading digits, each with at most one underscore before it. -/
  more : List Char → List Char
    | '_' :: c :: s => if p c then more s else '_' :: c :: s
    | c :: s => if p c then more s else c :: s
    | [] => []

/-- The text after a sign, if there is one. -/
def skipSign : List Char → List Char
  | '+' :: s => s
  | '-' :: s => s
  | s => s

/-- The text after the decimal number at the front, which has no leading zeros. -/
def afterDecimal? (s : List Char) : Option (List Char) :=
  match skipSign s with
  | '0' :: s => some s
  | s => afterDigits? Char.isDigit s

/-- What `s` holds before its rest `t`. -/
def upTo (s t : List Char) : List Char := s.take (s.length - t.length)

/-- The value of digits of a base, underscores left out. -/
def readDigits (base : Nat) (s : List Char) : Nat :=
  s.foldl (fun n c => match hexValue? c with
    | some d => n * base + d
    | none => n) 0

/-- A whole number, if it is in range. -/
def integer? (n : Int) (s : List Char) : Option (Value × List Char) :=
  if -(maxInteger : Int) - 1 ≤ n ∧ n ≤ maxInteger then some (.integer n, s) else none

/-- The digits of a base other than ten. -/
def readBased? (base : Nat) (p : Char → Bool) (s : List Char) : Option (Value × List Char) := do
  let t ← afterDigits? p s
  integer? (readDigits base (upTo s t)) t

def readInteger? : List Char → Option (Value × List Char)
  | '0' :: 'x' :: s => readBased? 16 isHexDigit s
  | '0' :: 'o' :: s => readBased? 8 (fun c => '0' ≤ c && c ≤ '7') s
  | '0' :: 'b' :: s => readBased? 2 (fun c => c == '0' || c == '1') s
  | s => do
    let t ← afterDecimal? s
    let n := readDigits 10 (upTo s t)
    integer? (if s.head? = some '-' then -(n : Int) else n) t

def afterExponent? : List Char → Option (List Char)
  | c :: s => if c = 'e' ∨ c = 'E' then afterDigits? Char.isDigit (skipSign s) else none
  | [] => none

/-- The number with a fraction or an exponent at the front. It is not too large. -/
def readFraction? (s : List Char) : Option (Value × List Char) := do
  let wholeEnd ← afterDecimal? s
  let (fractionEnd, t) ←
    match wholeEnd with
    | '.' :: t => do
      let fractionEnd ← afterDigits? Char.isDigit t
      some (fractionEnd, (afterExponent? fractionEnd).getD fractionEnd)
    | wholeEnd => do
      let t ← afterExponent? wholeEnd
      some (wholeEnd, t)
  let fraction := upTo (wholeEnd.drop 1) fractionEnd
  let places := (fraction.filter Char.isDigit).length
  let exponentText := upTo (fractionEnd.drop 1) t
  let size := readDigits 10 exponentText
  let exponent : Int := if exponentText.head? = some '-' then -(size : Int) else size
  let digits := upTo s wholeEnd ++ fraction
  if s.head? ≠ some '-' ∧ isTooLarge (readDigits 10 digits) (exponent - places) then none
  else some (.fraction (String.ofList (upTo s t)), t)

/-- Infinity and the number that is none, at the front. -/
def readSpecial? (s : List Char) : Option (Value × List Char) :=
  match skipSign s with
  | 'i' :: 'n' :: 'f' :: t => some (.fraction (String.ofList (upTo s t)), t)
  | 'n' :: 'a' :: 'n' :: t => some (.fraction (String.ofList (upTo s t)), t)
  | _ => none

/-- The number that the first `n` characters write, all of them being digits. -/
def fixed? (n : Nat) (s : List Char) : Option (Nat × List Char) :=
  let ds := s.take n
  if ds.length = n ∧ ds.all Char.isDigit then some (readDecimal ds, s.drop n) else none

def daysIn (year month : Nat) : Nat :=
  if month = 2 then
    if year % 4 = 0 ∧ (year % 100 ≠ 0 ∨ year % 400 = 0) then 29 else 28
  else if month = 4 ∨ month = 6 ∨ month = 9 ∨ month = 11 then 30
  else 31

def after? (c : Char) : List Char → Option (List Char)
  | [] => none
  | d :: s => if c = d then some s else none

def afterDay? (s : List Char) : Option (List Char) := do
  let (year, s) ← fixed? 4 s
  let (month, s) ← fixed? 2 (← after? '-' s)
  let (day, s) ← fixed? 2 (← after? '-' s)
  if 1 ≤ month ∧ month ≤ 12 ∧ 1 ≤ day ∧ day ≤ daysIn year month then some s else none

def afterTime? (s : List Char) : Option (List Char) := do
  let (hour, s) ← fixed? 2 s
  let (minute, s) ← fixed? 2 (← after? ':' s)
  let (second, s) ← fixed? 2 (← after? ':' s)
  if 24 ≤ hour ∨ 60 ≤ minute ∨ 60 < second then none
  else
    match s with
    | '.' :: c :: t => some (if c.isDigit then t.dropWhile Char.isDigit else s)
    | s => some s

/-- The text after the offset from universal time at the front. -/
def afterOffset? : List Char → Option (List Char)
  | [] => none
  | c :: s =>
    if c = 'Z' ∨ c = 'z' then some s
    else if c = '+' ∨ c = '-' then do
      let (hour, s) ← fixed? 2 s
      let (minute, s) ← fixed? 2 (← after? ':' s)
      if hour < 24 ∧ minute < 60 then some s else none
    else none

/-- The date, with or without a time of day, or the time of day at the front. -/
def readDate? (s : List Char) : Option (Value × List Char) := do
  let t ←
    match afterDay? s with
    | some t =>
      let timed := do
        let c ← t.head?
        if c = 'T' ∨ c = 't' ∨ c = ' ' then
          let t ← afterTime? (t.drop 1)
          some ((afterOffset? t).getD t)
        else none
      some (timed.getD t)
    | none => afterTime? s
  some (.date (String.ofList (upTo s t)), t)

def readNumber? (s : List Char) : Option (Value × List Char) :=
  readDate? s <|> readFraction? s <|> readSpecial? s <|> readInteger? s

/-! ## Values and documents -/

/-- Reads the items of an array up to its end, after the items `done` (last one first). There are
at most `fuel` of them. -/
def readItems (read : List Char → Option (Value × List Char)) (fuel : Nat) (done : List Value)
    (s : List Char) : Option (Value × List Char) :=
  match fuel with
  | 0 => none
  | fuel + 1 => do
    match ← skipLines? s.length s with
    | ']' :: s => some (.array done.reverse, s)
    | s =>
      let (v, s) ← read s
      match ← skipLines? s.length s with
      | ',' :: s => readItems read fuel (v :: done) s
      | ']' :: s => some (.array (v :: done).reverse, s)
      | _ => none

/-- Reads the entries of a table between braces up to its end. There are at most `fuel` of them. -/
def readBraces (read : List Char → Option (Value × List Char)) (fuel : Nat) (done : Entries)
    (s : List Char) : Option (Value × List Char) :=
  match fuel with
  | 0 => none
  | fuel + 1 => do
    let ((path, last), s) ← readKey? maxDepth s
    let s ← after? '=' s
    let (v, s) ← read (skipSpace s)
    let done ← done.addDotted path last v
    match skipSpace s with
    | ',' :: s => readBraces read fuel done s
    | '\x7d' :: s => some (.table .braces done, s)
    | _ => none

/-- Reads the value at the front, which lies in no more than `depth` others of its text. -/
def readValue (depth : Nat) (s : List Char) : Option (Value × List Char) :=
  match s with
  | 't' :: 'r' :: 'u' :: 'e' :: s => some (.boolean true, s)
  | 'f' :: 'a' :: 'l' :: 's' :: 'e' :: s => some (.boolean false, s)
  | '[' :: s =>
    match depth with
    | 0 => none
    | depth + 1 => readItems (readValue depth) (s.length + 1) [] s
  | '\x7b' :: s =>
    match depth with
    | 0 => none
    | depth + 1 =>
      match skipSpace s with
      | '\x7d' :: s => some (.table .braces [], s)
      | s => readBraces (readValue depth) (s.length + 1) [] s
  | c :: s =>
    if c = '"' ∨ c = '\'' then (readString? (c :: s)).map fun (t, s) => (.string t, s)
    else readNumber? (c :: s)
  | [] => none
termination_by structural depth

/-- A document that is being read: its entries and the path of its current table. -/
structure Draft where
  entries : Entries
  current : List String

/-- Reads one line of a document, which is not empty. -/
def readLine? (d : Draft) : List Char → Option (Draft × List Char)
  | '[' :: '[' :: s => do
    let ((path, last), s) ← readKey? maxDepth s
    let s ← after? ']' s
    let s ← after? ']' s
    let s ← endLine? s
    let entries ← d.entries.openElement path last
    some (⟨entries, path ++ [last]⟩, s)
  | '[' :: s => do
    let ((path, last), s) ← readKey? maxDepth s
    let s ← after? ']' s
    let s ← endLine? s
    let entries ← d.entries.openTable path last
    some (⟨entries, path ++ [last]⟩, s)
  | s => do
    let ((path, last), s) ← readKey? maxDepth s
    let s ← after? '=' s
    let (v, s) ← readValue maxDepth (skipSpace s)
    let s ← endLine? s
    let entries ← d.entries.addUnder d.current path last v
    some (⟨entries, d.current⟩, s)

/-- Reads a document on. There are at most `fuel` lines. -/
def readLines? (fuel : Nat) (d : Draft) (s : List Char) : Option Entries :=
  match fuel with
  | 0 => none
  | fuel + 1 => do
    match ← skipBlankLines s with
    | [] => some d.entries
    | s =>
      let (d, s) ← readLine? d s
      readLines? fuel d s
where
  /-- A text less its leading lines that are empty or comments; the last may end with the text. -/
  skipBlankLines (s : List Char) : Option (List Char) :=
    go s.length s
  /-- As `skipBlankLines`, for at most `n` lines. -/
  go (n : Nat) (s : List Char) : Option (List Char) :=
    match n, skipSpace s with
    | _, [] => some []
    | 0, s => some s
    | n + 1, c :: s =>
      if c = '#' ∨ c = '\n' ∨ c = '\r' then (endLine? (c :: s)).bind (go n)
      else some (c :: s)

def parse? (text : String) : Option Entries :=
  let s := match text.toList with
    | '\ufeff' :: s => s
    | s => s
  readLines? (s.length + 1) ⟨[], []⟩ s

end RoutineParams.Toml
