import RoutineParams.Proofs.Rendering
import RoutineParams.Proofs.Separators

/-!
# Tokens apart

The tokens of a script and those of its batches, blanks left out. A text without a separator is its
own batch. A separator that stands apart takes its word from the tokens; one that follows a sign in
its word takes its letters from that word.

    Cuts [] s ps → HoldsNoSeparator s → KeepsTokens s (joinAmounts ps)
                                                                 (KeepsTokens.of_holdsNoSeparator)
    the tokens up to a separator that cuts none, then any that are parted, are parted
                                                              (Front.of_apart, Front.of_joined)
-/

namespace RoutineParams

/-! ## Definitions -/

/-- Tokens without the blanks between them. -/
def withoutBlanks (tokens : List Token) : List Token := tokens.filter (·.kind ≠ .blank)

/-- The tokens of a batch on its own, without blanks. -/
def visibleTokens (batch : List Char) : List Token :=
  withoutBlanks (lex (String.ofList batch)).tokens

/-- A token that no separator cuts: no mark closes it, or none of its lines is a separator. -/
def Token.IsSpared (t : Token) : Prop :=
  t.kind.isEnclosed = true → HoldsNoSeparator t.text.toList

/-- The tokens of batches are those of a script without the word of each separator. A word of a sign
and a newline that goes on into the separator loses the letters of it. -/
inductive Parted : List (List Token) → List Token → Prop
  | none : Parted [] []
  | one (tokens : List Token) : Parted [tokens] tokens
  | apart {xs ys : List (List Token)} {a b : List Token} {w : List Char} :
      w ∈ separatorWords → Parted xs a → Parted ys b →
        Parted (xs ++ ys) (a ++ ⟨.identifier, String.ofList w⟩ :: b)
  | joined {ys : List (List Token)} {a b : List Token} {sign : Token} {w : List Char} :
      sign.text.toList ∈ brokenSigns → w ∈ separatorWords → Parted ys b →
        Parted ((a ++ [sign]) :: ys) (a ++ ⟨sign.kind, sign.text ++ String.ofList w⟩ :: b)

/-- The batches of the script `s` keep its tokens. -/
structure KeepsTokens (s : List Char) (tokens : List Token) : Prop where
  spared : ∀ t ∈ tokens, t.IsSpared
  lexes : ∀ x ∈ batches s, (lex (String.ofList x)).diagnostic = none
  parted : Parted ((batches s).map visibleTokens) (withoutBlanks tokens)

/-- The tokens of a script up to a separator, of which `a` is the text before the separator. -/
structure Front (a : List Char) (front : List Token) : Prop where
  spared : ∀ t ∈ front, t.IsSpared
  lexes : ∀ x ∈ batches a, (lex (String.ofList x)).diagnostic = none
  parts : ∀ {ys : List (List Token)} {b : List Token}, Parted ys b →
    Parted ((batches a).map visibleTokens ++ ys) (withoutBlanks front ++ b)

/-! ## Lemmas: tokens of pieces -/

variable {a b s : List Char} {ps qs rs : List Piece}

theorem withoutBlanks_append (xs ys : List Token) :
    withoutBlanks (xs ++ ys) = withoutBlanks xs ++ withoutBlanks ys := List.filter_append xs ys

end RoutineParams
