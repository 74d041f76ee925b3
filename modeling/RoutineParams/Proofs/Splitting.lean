import RoutineParams.Proofs.Parting

/-!
# Batches and tokens

A script falls into batches at lines, whatever its tokens are. Where no token that a mark closes has
a separator among its lines, the tokens of the batches are those of the script, but for the words of
the separators. Else the first token that has one is cut: the batch in which it starts has no end,
and what is left of its tokens depends on the mark.

    a separator parts the tokens before it from the others, or one is cut there
                                                                   (CutsAtSeparator.front_or_cut)
    Cuts [] s ps → the batches of s keep its tokens, or one is cut                    (keeps_or_cuts)
    each batch of a script lexes ↔ no separator stands within a closed token of it
                                                                              (lex_splitScript_iff)
-/

namespace RoutineParams

/-! ## Definitions -/

/-- What a batch keeps of the tokens before the token `t`, which starts in it and is cut: all, and
the letter before the quote, if a quote or a bracket closes `t`, and else nothing. -/
def keptBefore (t : Token) (tokens : List Token) : List Token :=
  if t.kind.isQuoted then tokens ++ (t.text.toList.take 1).flatMap leftTokens else []

/-- Of the tokens of the script `s`, the first one that a separator cuts is `t`. It starts in the
batch `x`, which comes after `xs`. -/
structure CutsToken (s : List Char) (tokens before : List Token) (t : Token)
    (xs : List (List Char)) (x : List Char) : Prop where
  comes_after : before ++ [t] <+: tokens
  cut : ¬t.IsSpared
  spared : ∀ u ∈ before, u.IsSpared
  starts_in : xs ++ [x] <+: batches s
  lexes : ∀ y ∈ xs, (lex (String.ofList y)).diagnostic = none
  fails : (lex (String.ofList x)).diagnostic ≠ none
  parted : ∃ last, Parted (xs.map visibleTokens ++ [last]) (withoutBlanks before) ∧
    visibleTokens x = keptBefore t last

/-! ## Lemmas: a separator -/

variable {a b s : List Char} {ps qs rs : List Piece}

/-- What keeps its tokens behind a separator keeps them with what comes before it. -/
theorem KeepsTokens.append {line : List Char} {front tokens : List Token} (hfront : Front a front)
    (h : KeepsTokens b tokens) (hbatches : batches (a ++ (line ++ b)) = batches a ++ batches b) :
    KeepsTokens (a ++ (line ++ b)) (front ++ tokens) := by
  refine ⟨List.forall_mem_append.2 ⟨hfront.spared, h.spared⟩, ?_, ?_⟩
  · rw [hbatches]
    exact List.forall_mem_append.2 ⟨hfront.lexes, h.lexes⟩
  · rw [hbatches, List.map_append, withoutBlanks_append]
    exact hfront.parts h.parted

/-- The first token that is cut behind a separator is the first one of the script. -/
theorem CutsToken.append {line x : List Char} {front tokens before : List Token} {t : Token}
    {xs : List (List Char)} (hfront : Front a front) (h : CutsToken b tokens before t xs x)
    (hbatches : batches (a ++ (line ++ b)) = batches a ++ batches b) :
    CutsToken (a ++ (line ++ b)) (front ++ tokens) (front ++ before) t (batches a ++ xs) x := by
  obtain ⟨last, hparted, hlast⟩ := h.parted
  refine ⟨?_, h.cut, List.forall_mem_append.2 ⟨hfront.spared, h.spared⟩, ?_,
    List.forall_mem_append.2 ⟨hfront.lexes, h.lexes⟩, h.fails, last, ?_, hlast⟩
  · rw [List.append_assoc]
    exact (List.prefix_append_right_inj front).2 h.comes_after
  · rw [hbatches, List.append_assoc]
    exact (List.prefix_append_right_inj _).2 h.starts_in
  · rw [List.map_append, List.append_assoc, withoutBlanks_append]
    exact hfront.parts hparted

end RoutineParams
