import Mathlib.Data.List.Chain
import RoutineParams.Proofs.Keywords
import RoutineParams.Proofs.Rendering

/-!
# Signatures

The header of a routine as data: the words it opens with, the name in its parts, and the parameters
with their types and defaults. A signature is written as a list of tokens, of which each may follow
the one before.

    (sig.written ++ rest).IsChain MayTouch   if rest may follow a complete operand
                                                                (Signature.isChain_written)
-/

namespace RoutineParams

/-! ## What is written -/

/-- A word that can be a name or a type: neither reserved nor `RETURNS`. -/
structure Identifier where
  word : Word
  upper_not_mem : word.upper ∉ reservedWords
  upper_ne : word.upper ≠ "RETURNS"

/-- A part of the name of a routine. -/
inductive NamePart where
  | identifier (i : Identifier)
  | bracketed (text : List Char)

/-- An argument of a type: a number, or the word `MAX`. -/
inductive TypeArgument where
  | size (d : Digits)
  | max (k : Keyword "MAX")

/-- The declaration of a parameter. A type without arguments has no parentheses. -/
structure FormalParameter where
  name : VariableName
  type : Identifier
  arguments : List TypeArgument
  default : Option Literal

/-- The word that tells what kind of routine is created. -/
inductive RoutineWord where
  | procedure (k : Keyword "PROCEDURE")
  | function (k : Keyword "FUNCTION")

/-- The header of a routine up to the end of its parameters. -/
structure Signature where
  create : Keyword "CREATE"
  orAlter : Option (Keyword "OR" × Keyword "ALTER")
  routine : RoutineWord
  name : NamePart
  furtherName : List NamePart
  parenthesised : Bool
  parameters : List FormalParameter

/-- Digits as a number. -/
def Digits.numeral (d : Digits) : Numeral :=
  ⟨d.figures, none, none, d.isDigit_of_mem, by simp, Or.inl d.figures_ne_nil⟩

def NamePart.written : NamePart → Written
  | identifier i => .word i.word
  | bracketed text => .bracketed text

def TypeArgument.written : TypeArgument → Written
  | size d => .literal (.numeral d.numeral)
  | max k => .word k.word

/-- The arguments of a type from the second one on, and the closing parenthesis. -/
def furtherArguments : List TypeArgument → List Written
  | [] => [.rightParen]
  | a :: as => .comma :: a.written :: furtherArguments as

/-- The arguments of a type in parentheses. -/
def argumentsWritten : List TypeArgument → List Written
  | [] => []
  | a :: as => .leftParen :: a.written :: furtherArguments as

namespace FormalParameter

/-- The type of a parameter as it is written. -/
def typeWritten (p : FormalParameter) : List Written :=
  .word p.type.word :: argumentsWritten p.arguments

/-- The default of a parameter as it is written. -/
def defaultWritten (p : FormalParameter) : List Written :=
  match p.default with
  | some l => [.equals, .literal l]
  | none => []

def written (p : FormalParameter) : List Written :=
  .localVariable p.name :: (p.typeWritten ++ p.defaultWritten)

/-- The parameter that is declared: the default is the literal as it is written. -/
def parameter (id : ObjectId) (p : FormalParameter) : Parameter :=
  ⟨id, String.ofList p.name.text, match p.default with
    | some l => String.ofList l.text
    | none => ""⟩

end FormalParameter

/-- Parameters from the second one on. -/
def furtherParameters : List FormalParameter → List Written
  | [] => []
  | p :: ps => .comma :: (p.written ++ furtherParameters ps)

/-- Parameters separated by commas. -/
def parametersWritten : List FormalParameter → List Written
  | [] => []
  | p :: ps => p.written ++ furtherParameters ps

/-- The parts of a name from the second one on. -/
def furtherNameWritten : List NamePart → List Written
  | [] => []
  | part :: parts => .dot :: part.written :: furtherNameWritten parts

def RoutineWord.word : RoutineWord → Word
  | procedure k => k.word
  | function k => k.word

namespace Signature

/-- The words that a signature opens with. -/
def openingWords (sig : Signature) : List Word :=
  sig.create.word ::
    ((match sig.orAlter with
      | some (or, alter) => [or.word, alter.word]
      | none => []) ++ [sig.routine.word])

/-- What is written before the parameters. -/
def opening (sig : Signature) : List Written :=
  sig.openingWords.map .word ++ sig.name.written :: furtherNameWritten sig.furtherName

/-- What is written after the parameters. -/
def closing (sig : Signature) : List Written := if sig.parenthesised then [.rightParen] else []

def written (sig : Signature) : List Written :=
  sig.opening ++ ((if sig.parenthesised then [.leftParen] else []) ++
    (parametersWritten sig.parameters ++ sig.closing))

end Signature

/-! ## Lemmas: what may follow what -/

namespace Written

/-- A token that can end a name, a type or a default. -/
def isOperand : Written → Bool
  | word _ | bracketed _ | literal _ | rightParen => true
  | _ => false

/-- A token that can follow an operand. -/
def followsOperand : Written → Bool
  | word _ | localVariable _ | leftParen | rightParen | comma | equals => true
  | _ => false

/-- No operand goes on with a sign. -/
theorem endsAt_sign {a : Written} (ha : a.isOperand = true) {c : Char}
    (hc : c ∈ ['(', ')', ',', '=']) : a.endsAt c = true := by
  have hclasses : ['(', ')', ',', '='].all (fun c => !isWordPart c && !isNumeric c &&
      !isHexDigit c && c != '\'' && c != ']' && c != '.') = true := by decide
  have hnot := List.all_eq_true.1 hclasses c hc
  simp only [Bool.and_eq_true, Bool.not_eq_true', bne_iff_ne] at hnot
  obtain ⟨⟨⟨⟨⟨hpart, hnumeric⟩, hhex⟩, hquote⟩, hbracket⟩, hdot⟩ := hnot
  cases a with
  | word w => simp [endsAt, hpart, hquote]
  | bracketed text => simp [endsAt, hbracket]
  | rightParen => rfl
  | literal l => cases l <;> simp [endsAt, hpart, hnumeric, hhex, hquote, hdot]
  | localVariable | equals | leftParen | comma | dot => cases ha

/-- No operand but a word or a number goes on with what a word starts with. -/
theorem endsAt_letter {a : Written} (ha : a.isOperand = true) (hword : a.isWordOrNumber = false)
    {c : Char} (hc : isLetter c = true ∨ c = '@') : a.endsAt c = true := by
  have hne : ∀ d, isLetter d = false → d ≠ '@' → c ≠ d := by
    intro d hd hat
    rcases hc with hc | rfl
    · exact ne_of_class hc hd
    · exact hat.symm
  have hquote := hne '\'' (by decide) (by decide)
  cases a with
  | bracketed text => simpa [endsAt] using hne ']' (by decide) (by decide)
  | rightParen => rfl
  | literal l =>
    cases l with
    | string | national => simpa [endsAt] using hquote
    | numeral | hex | null | money | cents => cases hword
  | word | localVariable => cases hword
  | equals | leftParen | comma | dot => cases ha

theorem mayTouch_of_operand {a b : Written} (ha : a.isOperand = true)
    (hb : b.followsOperand = true) : a.MayTouch b := by
  by_cases hboth : a.isWordOrNumber = true ∧ b.isWordOrNumber = true
  · exact Or.inl hboth
  refine Or.inr fun c hc => ?_
  cases b with
  | word w =>
    obtain rfl := Option.some.inj hc
    exact endsAt_letter ha (by simpa [isWordOrNumber] using hboth) (Or.inl w.isLetter_first)
  | localVariable v =>
    obtain rfl := Option.some.inj hc
    exact endsAt_letter ha (by simpa [isWordOrNumber] using hboth) (Or.inr rfl)
  | leftParen | rightParen | comma | equals =>
    obtain rfl := Option.some.inj hc
    exact endsAt_sign ha (by simp)
  | bracketed | literal | dot => cases hb

theorem mayTouch_of_words {a b : Written} (ha : a.isWordOrNumber = true)
    (hb : b.isWordOrNumber = true) : a.MayTouch b := Or.inl ⟨ha, hb⟩

theorem leftParen_mayTouch (b : Written) : leftParen.MayTouch b := Or.inr fun _ _ => rfl

theorem comma_mayTouch (b : Written) : comma.MayTouch b := Or.inr fun _ _ => rfl

theorem equals_mayTouch_literal (l : Literal) : equals.MayTouch (literal l) := by
  refine Or.inr fun c hc => ?_
  match l with
  | .numeral n =>
    obtain ⟨d, t, ht, hd⟩ := n.head?_text
    rw [text, Literal.text, ht] at hc
    obtain rfl := Option.some.inj hc
    have hne : ∀ e, (e.isDigit || e == '.') = false → d ≠ e := fun e he =>
      ne_of_class (p := fun c => c.isDigit || c == '.') (by simpa using hd) he
    simp [endsAt, hne '=' (by decide), hne '>' (by decide)]
  | .null k =>
    obtain rfl := Option.some.inj hc
    have hne : ∀ e, isLetter e = false → k.word.first ≠ e := fun e he =>
      ne_of_class k.word.isLetter_first he
    simp [endsAt, hne '=' (by decide), hne '>' (by decide)]
  | .string _ | .national _ | .hex _ _ | .money _ | .cents _ _ =>
    obtain rfl := Option.some.inj hc
    rfl

theorem part_mayTouch_dot (part : NamePart) : part.written.MayTouch dot := by
  refine Or.inr fun c hc => ?_
  obtain rfl := Option.some.inj hc
  cases part with
  | identifier i =>
    have : isWordPart '.' = false := by decide
    simp [NamePart.written, endsAt, this]
  | bracketed text => simp [NamePart.written, endsAt]

theorem dot_mayTouch_part (part : NamePart) : dot.MayTouch part.written := by
  refine Or.inr fun c hc => ?_
  cases part with
  | identifier i =>
    obtain rfl := Option.some.inj hc
    simp [endsAt, isDigit_of_isLetter i.word.isLetter_first]
  | bracketed text =>
    obtain rfl := Option.some.inj hc
    rfl

theorem word_mayTouch_part (w : Word) (part : NamePart) : (word w).MayTouch part.written := by
  cases part with
  | identifier i => exact mayTouch_of_words rfl rfl
  | bracketed text =>
    refine Or.inr fun c hc => ?_
    obtain rfl := Option.some.inj hc
    simp [endsAt]
    decide

/-- Tokens that can follow whatever ends a name, a type or a default. -/
def AfterOperand (rest : List Written) : Prop :=
  ∀ z : Written, z.isOperand = true → (z :: rest).IsChain MayTouch

end Written

open Written

variable {rest : List Written}

theorem afterOperand_cons {b : Written} (hb : b.followsOperand = true)
    (h : (b :: rest).IsChain MayTouch) : AfterOperand (b :: rest) := fun _ hz =>
  .cons_cons (mayTouch_of_operand hz hb) h

theorem isChain_leftParen_cons (h : AfterOperand rest) : (leftParen :: rest).IsChain MayTouch :=
  List.isChain_cons.2 ⟨fun b _ => leftParen_mayTouch b, (h rightParen rfl).of_cons⟩

theorem isOperand_argument (a : TypeArgument) : a.written.isOperand = true := by
  cases a <;> rfl

theorem isOperand_part (part : NamePart) : part.written.isOperand = true := by
  cases part <;> rfl

theorem afterOperand_furtherArguments (h : AfterOperand rest) (as : List TypeArgument) :
    AfterOperand (furtherArguments as ++ rest) := by
  induction as with
  | nil => exact afterOperand_cons rfl (h rightParen rfl)
  | cons a as ih =>
    exact afterOperand_cons rfl (.cons_cons (comma_mayTouch _) (ih _ (isOperand_argument a)))

theorem afterOperand_arguments (h : AfterOperand rest) (as : List TypeArgument) :
    AfterOperand (argumentsWritten as ++ rest) := by
  cases as with
  | nil => exact h
  | cons a as =>
    exact afterOperand_cons rfl (.cons_cons (leftParen_mayTouch _)
      (afterOperand_furtherArguments h as _ (isOperand_argument a)))

theorem afterOperand_default (h : AfterOperand rest) (p : FormalParameter) :
    AfterOperand (p.defaultWritten ++ rest) := by
  unfold FormalParameter.defaultWritten
  split
  · next l _ => exact afterOperand_cons rfl (.cons_cons (equals_mayTouch_literal l) (h _ rfl))
  · exact h

theorem isChain_parameter (h : AfterOperand rest) (p : FormalParameter) :
    (p.written ++ rest).IsChain MayTouch := by
  have htype := afterOperand_arguments (afterOperand_default h p) p.arguments
  have hword := htype (word p.type.word) rfl
  simp only [FormalParameter.written, FormalParameter.typeWritten, List.cons_append,
    List.append_assoc]
  exact .cons_cons (mayTouch_of_words rfl rfl) hword

theorem afterOperand_furtherParameters (h : AfterOperand rest) (ps : List FormalParameter) :
    AfterOperand (furtherParameters ps ++ rest) := by
  induction ps with
  | nil => exact h
  | cons p ps ih =>
    have hp := isChain_parameter ih p
    rw [← List.append_assoc] at hp
    exact afterOperand_cons rfl
      (List.isChain_cons.2 ⟨fun b _ => comma_mayTouch b, hp⟩)

theorem afterOperand_parameters (h : AfterOperand rest) (ps : List FormalParameter) :
    AfterOperand (parametersWritten ps ++ rest) := by
  cases ps with
  | nil => exact h
  | cons p ps =>
    have hp := isChain_parameter (afterOperand_furtherParameters h ps) p
    rw [← List.append_assoc] at hp
    exact afterOperand_cons rfl hp

theorem isChain_name (h : AfterOperand rest) (part : NamePart) (parts : List NamePart) :
    (part.written :: (furtherNameWritten parts ++ rest)).IsChain MayTouch := by
  induction parts generalizing part with
  | nil => exact h _ (isOperand_part part)
  | cons next parts ih =>
    exact .cons_cons (part_mayTouch_dot part) (.cons_cons (dot_mayTouch_part next) (ih next))

theorem isChain_words (h : ∀ w, (word w :: rest).IsChain MayTouch) (w : Word) (ws : List Word) :
    (word w :: (ws.map word ++ rest)).IsChain MayTouch := by
  induction ws generalizing w with
  | nil => exact h w
  | cons v ws ih => exact .cons_cons (mayTouch_of_words rfl rfl) (ih v)

/-! ## Top theorem (proved from the lemmas above) -/

/-- A signature is written with tokens that may follow each other. -/
theorem Signature.isChain_written (sig : Signature) (h : AfterOperand rest) :
    (sig.written ++ rest).IsChain MayTouch := by
  have hclosing : AfterOperand (sig.closing ++ rest) := by
    unfold Signature.closing
    split
    · exact afterOperand_cons rfl (h rightParen rfl)
    · exact h
  have hparameters := afterOperand_parameters hclosing sig.parameters
  have hopen : AfterOperand ((if sig.parenthesised then [leftParen] else []) ++
      (parametersWritten sig.parameters ++ (sig.closing ++ rest))) := by
    split
    · exact afterOperand_cons rfl (isChain_leftParen_cons hparameters)
    · exact hparameters
  have hname := isChain_name hopen sig.name sig.furtherName
  have hwords := isChain_words (fun w => .cons_cons (word_mayTouch_part w sig.name) hname)
    sig.create.word
  simp only [Signature.written, Signature.opening, Signature.openingWords, List.map_cons,
    List.cons_append, List.append_assoc]
  exact hwords _

end RoutineParams
