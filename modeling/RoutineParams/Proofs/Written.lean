import RoutineParams.Proofs.Characters
import RoutineParams.Proofs.Pieces

/-!
# Written tokens

The tokens that the header of a routine is written with, as data: words, names of variables, quoted
names, literals and signs. Each has its characters, the pieces that the lexer cuts it into, the
token that these make, and the characters that it ends in front of (`Written.endsAt`).

    joinAmounts a.pieces = [a.token]                               (Written.joinAmounts_pieces)
-/

namespace RoutineParams

/-! ## What is written -/

/-- Digits, at least one. -/
structure Digits where
  figures : List Char
  figures_ne_nil : figures ≠ []
  isDigit_of_mem : ∀ c ∈ figures, c.isDigit = true

/-- An unquoted word that is no name of a variable. -/
structure Word where
  first : Char
  more : List Char
  isLetter_first : isLetter first = true
  isWordPart_of_mem : ∀ c ∈ more, isWordPart c = true

/-- The characters of a word. -/
def Word.letters (w : Word) : List Char := w.first :: w.more

/-- A word in upper case. -/
def Word.upper (w : Word) : String := String.ofList (w.letters.map Char.toUpper)

/-- The word `upper` in some case of its letters. -/
structure Keyword (upper : String) where
  word : Word
  upper_eq : word.upper = upper

/-- What follows the sign `@` in the name of a variable. -/
structure VariableName where
  first : Char
  more : List Char
  isWordPart_first : isWordPart first = true
  first_ne_at : first ≠ '@'
  isWordPart_of_mem : ∀ c ∈ more, isWordPart c = true

/-- The name of a variable as it is written. -/
def VariableName.text (v : VariableName) : List Char := '@' :: v.first :: v.more

/-- The exponent of a number. -/
structure Exponent where
  mark : Char
  sign : List Char
  digits : Digits
  mark_eq : mark = 'e' ∨ mark = 'E'
  sign_eq : sign = [] ∨ sign = ['+'] ∨ sign = ['-']

/-- An exponent as it is written. -/
def Exponent.text (e : Exponent) : List Char := e.mark :: (e.sign ++ e.digits.figures)

/-- A number: digits, or digits around a point, perhaps with an exponent. -/
structure Numeral where
  whole : List Char
  fraction : Option (List Char)
  exponent : Option Exponent
  isDigit_of_mem_whole : ∀ c ∈ whole, c.isDigit = true
  isDigit_of_mem_fraction : ∀ f ∈ fraction, ∀ c ∈ f, c.isDigit = true
  some_digit : whole ≠ [] ∨ ∃ f ∈ fraction, f ≠ []

/-- What is written of a number after its point. -/
def Numeral.fractionText (n : Numeral) : List Char :=
  match n.fraction with
  | some f => '.' :: f
  | none => []

/-- What is written of the exponent of a number. -/
def Numeral.exponentText (n : Numeral) : List Char :=
  match n.exponent with
  | some e => e.text
  | none => []

/-- A number as it is written. -/
def Numeral.text (n : Numeral) : List Char := n.whole ++ (n.fractionText ++ n.exponentText)

/-- A text in which every `close` is doubled. -/
def doubled (close : Char) (text : List Char) : List Char :=
  text.flatMap fun c => if c = close then [c, c] else [c]

/-- A literal of one token. -/
inductive Literal where
  | numeral (n : Numeral)
  | string (text : List Char)
  | national (text : List Char)
  | hex (digits : List Char) (isHexDigit_of_mem : ∀ c ∈ digits, isHexDigit c = true)
  | null (k : Keyword "NULL")
  | money (whole : Digits)
  | cents (whole fraction : Digits)

/-- A literal as it is written. -/
def Literal.text : Literal → List Char
  | numeral n => n.text
  | string text => '\'' :: (doubled '\'' text ++ ['\''])
  | national text => 'N' :: '\'' :: (doubled '\'' text ++ ['\''])
  | hex digits _ => '0' :: 'x' :: digits
  | null k => k.word.letters
  | money whole => '$' :: whole.figures
  | cents whole fraction => '$' :: (whole.figures ++ '.' :: fraction.figures)

/-- A token of a header. -/
inductive Written where
  | word (w : Word)
  | localVariable (v : VariableName)
  | bracketed (text : List Char)
  | literal (l : Literal)
  | equals
  | leftParen
  | rightParen
  | comma
  | dot

namespace Written

/-- A token as it is written. -/
def text : Written → List Char
  | word w => w.letters
  | localVariable v => v.text
  | bracketed text => '[' :: (doubled ']' text ++ [']'])
  | literal l => l.text
  | equals => ['=']
  | leftParen => ['(']
  | rightParen => [')']
  | comma => [',']
  | dot => ['.']

/-- The kind of a token. -/
def kind : Written → Kind
  | word w => .ofWord w.letters
  | localVariable _ => .localVariable
  | bracketed _ => .quotedIdentifier
  | literal (.numeral n) => .ofFigures n.text
  | literal (.string _) => .string
  | literal (.national _) => .nationalString
  | literal (.hex _ _) => .hex
  | literal (.null k) => .ofWord k.word.letters
  | literal (.money _) | literal (.cents _ _) => .money
  | equals => .equals
  | leftParen => .leftParen
  | rightParen => .rightParen
  | comma => .comma
  | dot => .dot

/-- The token that is read back. -/
def token (a : Written) : Token := ⟨a.kind, String.ofList a.text⟩

/-- The pieces that are read back. An amount of money with a fraction is two. -/
def pieces : Written → List Piece
  | word w => [⟨.word w.letters, w.letters⟩]
  | localVariable v => [⟨.word v.text, v.text⟩]
  | literal (.numeral n) => [⟨.number n.text, n.text⟩]
  | literal (.hex digits h) => [⟨.hex, (Literal.hex digits h).text⟩]
  | literal (.null k) => [⟨.word k.word.letters, k.word.letters⟩]
  | literal (.money whole) => [⟨.placeholder whole.figures, '$' :: whole.figures⟩]
  | literal (.cents whole fraction) =>
    [⟨.placeholder whole.figures, '$' :: whole.figures⟩,
      ⟨.number ('.' :: fraction.figures), '.' :: fraction.figures⟩]
  | literal (.string text) => [⟨.string, (Literal.string text).text⟩]
  | literal (.national text) => [⟨.nationalString, (Literal.national text).text⟩]
  | bracketed text => [⟨.quotedWord, (bracketed text).text⟩]
  | a => [⟨.sign a.kind, a.text⟩]

/-- Whether a token is a word or a number. -/
def isWordOrNumber : Written → Bool
  | word _ | localVariable _ | literal (.numeral _) | literal (.hex _ _) | literal (.null _)
  | literal (.money _) | literal (.cents _ _) => true
  | _ => false

/-- Whether a token is complete in front of the character `c`. A letter in front of a quote may
start a string. -/
def endsAt : Written → Char → Bool
  | word w, c => !isWordPart c && (c != '\'' || !w.more.isEmpty)
  | localVariable _, c => !isWordPart c
  | literal (.null _), c => !isWordPart c && c != '\''
  | bracketed _, c => c != ']'
  | literal (.numeral _), c | literal (.cents _ _), c => !isWordPart c && c != '.'
  | literal (.string _), c | literal (.national _), c => c != '\''
  | literal (.hex _ _), c => !isHexDigit c
  | literal (.money _), c => !isWordPart c && !isNumeric c && c != '.'
  | equals, c => c != '=' && c != '>'
  | dot, c => !c.isDigit
  | leftParen, _ | rightParen, _ | comma, _ => true

/-! ## Lemmas -/

theorem pieces_ne_nil (a : Written) : a.pieces ≠ [] := by
  unfold pieces
  split <;> simp

theorem isMoney_placeholder (d : Digits) : (Form.placeholder d.figures).isMoney = true := by
  simp only [Form.isMoney, Bool.and_eq_true, decide_eq_true_eq, List.all_eq_true]
  exact ⟨d.figures_ne_nil, d.isDigit_of_mem⟩

theorem ofLetters_word (w : Word) : Kind.ofLetters w.letters = .ofWord w.letters := by
  have hat : ('@' == w.first) = false := by
    have := ne_of_class (d := '@') w.isLetter_first (by decide)
    simpa using this.symm
  simp [Kind.ofLetters, Word.letters, List.isPrefixOf, hat]

theorem ofLetters_variable (v : VariableName) : Kind.ofLetters v.text = .localVariable := by
  have hat : ('@' == v.first) = false := by simpa using v.first_ne_at.symm
  simp [Kind.ofLetters, VariableName.text, List.isPrefixOf, hat]

/-- The pieces of a written token make that token. -/
theorem joinAmounts_pieces (a : Written) : joinAmounts a.pieces = [a.token] := by
  match a with
  | word w | literal (.null ⟨w, _⟩) =>
    simp [pieces, joinAmounts, Piece.token, token, kind, Form.kind, ofLetters_word, text,
      Literal.text]
  | localVariable v =>
    simp [pieces, joinAmounts, Piece.token, token, kind, Form.kind, ofLetters_variable, text]
  | literal (.money whole) =>
    simp [pieces, joinAmounts, Piece.token, token, kind, Form.kind, isMoney_placeholder, text,
      Literal.text]
  | literal (.cents whole fraction) =>
    simp [pieces, joinAmounts, Piece.isFractionOf, Form.isFraction, token, kind,
      isMoney_placeholder, text, Literal.text]
  | bracketed _ | literal (.numeral _) | literal (.string _) | literal (.national _)
  | literal (.hex _ _) | equals | leftParen | rightParen | comma | dot => rfl

/-- Only what starts with a point is read as a fraction. -/
theorem head?_of_isFraction (a : Written) :
    ∀ p ∈ a.pieces.head?, p.form.isFraction = true → a.text.head? = some '.' := by
  match a with
  | literal (.numeral n) => simp [pieces, Form.isFraction, text, Literal.text]
  | word _ | localVariable _ | bracketed _ | literal (.string _) | literal (.national _)
  | literal (.hex _ _) | literal (.null _) | literal (.money _) | literal (.cents _ _) | equals
  | leftParen | rightParen | comma | dot => simp [pieces, Form.isFraction]

/-- What follows an amount of money that is complete is no fraction of it. -/
theorem endsAt_of_isMoney (a : Written) :
    ∀ p ∈ a.pieces.getLast?, p.form.isMoney = true → a.endsAt '.' = false := by
  match a with
  | literal (.money _) => simp [endsAt]
  | word _ | localVariable _ | bracketed _ | literal (.string _) | literal (.national _)
  | literal (.hex _ _) | literal (.null _) | literal (.numeral _) | literal (.cents _ _) | equals
  | leftParen | rightParen | comma | dot => simp [pieces, Form.isMoney]

end Written

end RoutineParams
