import RoutineParams.Extraction
import RoutineParams.Proofs.Declared

/-!
# Parameters recovered from a text

A signature written as a text, with any gaps between its tokens, and closed by the word `AS` or
`RETURNS`. Where a clause opens next, the parameters are recovered as they are written, whatever
comes then. Where the body starts in any other way, they are recovered just if what comes before
its first terminator holds no variable and leaves the last default alone.

    (extract id text).parameters = sig.parameters.map (·.parameter id)
      if a clause opens after AS, or RETURNS follows                (parameters_extract_signature)
      iff the start of the body declares nothing, after AS           (parameters_extract_body_iff)
-/

namespace RoutineParams

/-! ## What is written -/

/-- What follows the parameters: `AS` and the first word of a body that opens a clause, or
`RETURNS`. -/
inductive Closing where
  | body (as : Keyword "AS") (opener : Word) (opens : opener.upper ∈ openers)
  | returns (k : Keyword "RETURNS")

/-- The word that ends the parameter list. -/
def Closing.last : Closing → Word
  | body _ opener _ => opener
  | returns k => k.word

/-- What is written before that word. -/
def Closing.before : Closing → List Written
  | body as _ _ => [.word as.word]
  | returns _ => []

/-- The text that items make in front of `rest`. -/
def textBefore (items : List Item) (rest : List Char) : String :=
  String.ofList (rendering items ++ rest)

@[simp] theorem toList_textBefore (items : List Item) (rest : List Char) :
    (textBefore items rest).toList = rendering items ++ rest := String.toList_ofList

theorem textBefore_eq {items : List Item} {rest : List Char} {text : String}
    (h : rendering items ++ rest = text.toList) : textBefore items rest = text := by
  rw [textBefore, h, String.ofList_toList]

/-! ## Lemmas: reading back -/

/-- A word of two letters or more is complete in front of what continues no word. -/
theorem Word.endsAt_of_upper {w : Word} (h : 2 ≤ w.upper.length) {c : Char}
    (hc : isWordPart c = false) : (Written.word w).endsAt c = true := by
  have hmore : w.more ≠ [] := by
    intro hnil
    rw [Word.upper, String.length_ofList, List.length_map, Word.letters, hnil] at h
    simp at h
  simp [Written.endsAt, hc, hmore]

/-- Items of which the last is a word are cut into pieces of which the last is that word. -/
theorem cuts_items_word {items : List Item} {before : List Written} {w : Word} {r : List Char}
    (hitems : items.map Item.token = before ++ [.word w]) (hsep : Separated items)
    (htouch : (items.map Item.token).IsChain Written.MayTouch)
    (hends : ∀ c ∈ r.head?, (Written.word w).endsAt c = true) :
    ∃ ps, Cuts r (rendering items) (ps ++ (Written.word w).pieces) ∧
      significant (joinAmounts (ps ++ (Written.word w).pieces)) =
        significant ((before ++ [Written.word w]).map Written.token) := by
  obtain ⟨i, hi, hiw⟩ : ∃ i, items.getLast? = some i ∧ i.token = .word w := by
    have hlast : (items.map Item.token).getLast? = some (.word w) := by
      rw [hitems, List.getLast?_concat]
    rwa [List.getLast?_map, Option.map_eq_some_iff] at hlast
  obtain ⟨ps, hps, htokens, -, hlast⟩ := cuts_items hsep htouch (fun j hj => by
    obtain rfl := Option.some.inj (hi.symm.trans hj)
    rwa [hiw])
  obtain ⟨qs, rfl⟩ := hlast i hi
  rw [hiw] at hps htokens
  refine ⟨qs, hps, ?_⟩
  rw [← hitems, List.map_map]
  exact htokens

/-- The significant tokens of a text that starts with a rendering: those that are rendered, and
then those of a start of the rest, which is all of it if there is no diagnostic. -/
theorem significant_tokens_textBefore (shown : Form → String) {items : List Item}
    {before : List Written} {w : Word} {rest : List Char}
    (hitems : items.map Item.token = before ++ [.word w]) (hsep : Separated items)
    (htouch : (items.map Item.token).IsChain Written.MayTouch)
    (hends : ∀ c ∈ rest.head?, (Written.word w).endsAt c = true)
    (hlex : (lexShowing shown (textBefore items rest)).diagnostic = none ∨
      (lexShowing shown (textBefore items rest)).tokens ≠ []) :
    ∃ b c qs, rest = b ++ c ∧
      ((lexShowing shown (textBefore items rest)).diagnostic = none → c = []) ∧ Cuts [] b qs ∧
      significant (lexShowing shown (textBefore items rest)).tokens =
        significant ((before ++ [Written.word w]).map Written.token ++ joinAmounts qs) := by
  have hsource : (textBefore items rest).toList = rendering items ++ rest := String.toList_ofList
  obtain ⟨_, hcuts, -⟩ := cuts_items_word hitems hsep htouch hends
  obtain ⟨b, c, hrest, hdiagnostic, qs, hqs, heq⟩ :=
    exists_cuts_of_tokens shown hcuts hsource hlex
  -- the rendering is cut in the same way in front of the start of the rest
  obtain ⟨ps, hps, hsignificant⟩ := cuts_items_word (r := b ++ []) hitems hsep htouch (by
    intro d hd
    refine hends d ?_
    rw [List.append_nil] at hd
    rw [hrest, List.head?_append, hd]
    rfl)
  obtain ⟨qs, rfl, hb⟩ := hps.split hqs
  refine ⟨b, c, qs, hrest, hdiagnostic, hb, ?_⟩
  have hjoin : ∀ p ∈ (ps ++ (Written.word w).pieces).getLast?, ∀ q ∈ qs.head?,
      q.isFractionOf p = false := by
    intro p hp q _
    rw [Written.pieces, Option.mem_def, List.getLast?_concat] at hp
    obtain rfl := Option.some.inj hp
    rfl
  rw [heq, joinAmounts_append hjoin, significant_append, hsignificant, ← significant_append]

/-- What a text with such a start declares is what its significant tokens declare. -/
theorem parameters_extract_textBefore (id : ObjectId) {items : List Item}
    {before : List Written} {w : Word} {rest : List Char}
    (hitems : items.map Item.token = before ++ [.word w]) (hsep : Separated items)
    (htouch : (before ++ [Written.word w]).IsChain Written.MayTouch)
    (hupper : 2 ≤ w.upper.length) (hrest : ∀ c ∈ rest.head?, isWordPart c = false)
    (hlex : (lex (textBefore items rest)).diagnostic = none ∨
      (lex (textBefore items rest)).tokens ≠ []) :
    ∃ b c qs, rest = b ++ c ∧ ((lex (textBefore items rest)).diagnostic = none → c = []) ∧
      Cuts [] b qs ∧ (extract id (textBefore items rest)).parameters = declaredBy id
        (listOf ((before ++ [Written.word w]).map Written.token ++ joinAmounts qs)) := by
  obtain ⟨b, c, qs, hbc, hdiagnostic, hcuts, hsignificant⟩ :=
    significant_tokens_textBefore (fun _ => "") hitems hsep (hitems ▸ htouch)
      (fun c hc => Word.endsAt_of_upper hupper (hrest c hc)) hlex
  refine ⟨b, c, qs, hbc, hdiagnostic, hcuts, ?_⟩
  show (scanTokens id (lexShowing (fun _ => "") (textBefore items rest)).tokens).parameters = _
  rw [← parameters_scanTokens_significant, hsignificant, parameters_scanTokens_significant,
    parameters_scanTokens]

/-! ## Lemmas: what closes a signature -/

theorem two_le_length_of_mem_openers : ∀ u ∈ openers, 2 ≤ u.length := by decide

namespace Keyword

/-- The word `AS` is passed over. -/
theorem role_as (as : Keyword "AS") : (Written.word as.word).token.role = .ignorable := by
  have hkind : Kind.ofWord as.word.letters = .as := by
    rw [Word.ofWord_letters, as.upper_eq]
    rfl
  simp [Token.role, Token.isReturns, Written.token, Written.kind, hkind, Kind.role]

/-- After a signature the word `AS` changes nothing. -/
theorem declared_as (id : ObjectId) (as : Keyword "AS") (ps : List FormalParameter)
    (tokens : List Token) :
    declaredParameters id ps (segmentOf ((Written.word as.word).token :: tokens)) =
        declaredParameters id ps (segmentOf tokens) ∧
      declaredBy id ((Written.word as.word).token :: tokens) = declaredBy id tokens := by
  refine ⟨?_, ?_⟩
  · rw [segmentOf_cons, if_neg (by simp [role_as]),
      declaredParameters_cons id ps (by simp [role_as]) as.word.isAssignment_eq_false]
  · rw [declaredBy_cons, if_neg (by simp [role_as]), List.nil_append]

end Keyword

namespace Closing

theorem upper_last_mem (close : Closing) : close.last.upper ∈ "RETURNS" :: openers := by
  cases close with
  | body as opener opens => exact List.mem_cons_of_mem _ opens
  | returns k => rw [last, k.upper_eq]; exact List.mem_cons_self

theorem two_le_length (close : Closing) : 2 ≤ close.last.upper.length := by
  rcases List.mem_cons.1 close.upper_last_mem with h | h
  · rw [h]; decide
  · exact two_le_length_of_mem_openers _ h

theorem afterOperand (close : Closing) :
    Written.AfterOperand (close.before ++ [.word close.last]) := by
  cases close with
  | body as opener opens =>
    exact afterOperand_cons rfl (.cons_cons (Written.mayTouch_of_words rfl rfl) (.singleton _))
  | returns k => exact afterOperand_cons rfl (.singleton _)

theorem declaredBy_signature (id : ObjectId) (sig : Signature) (close : Closing) :
    declaredBy id (sig.written.map Written.token ++ close.before.map Written.token) =
      sig.parameters.map (·.parameter id) := by
  rw [sig.declaredBy_written]
  cases close with
  | body as opener opens =>
    rw [before, List.map_singleton, (as.declared_as id sig.parameters []).1,
      (as.declared_as id sig.parameters []).2, declaredBy_nil, List.append_nil]
    exact declaredParameters_nil id sig.parameters
  | returns k =>
    rw [before, List.map_nil, declaredBy_nil, List.append_nil]
    exact declaredParameters_nil id sig.parameters

theorem role_before_ne_terminator (close : Closing) :
    ∀ t ∈ close.before.map Written.token, t.role ≠ .terminator := by
  cases close with
  | body as opener opens => simp [before, as.role_as]
  | returns k => simp [before]

end Closing

/-! ## A signature to try the theorems on -/

/-- The word `as`. -/
def sampleAs : Keyword "AS" := ⟨⟨'a', ['s'], by decide, List.all_eq_true.1 (by decide)⟩, by decide⟩

/-- The word `begin` after `as`. -/
def sampleClosing : Closing :=
  .body sampleAs ⟨'b', ['e', 'g', 'i', 'n'], by decide, List.all_eq_true.1 (by decide)⟩ (by decide)

/-- The signature `create procedure p @a int, @b money = $1.50`. -/
def sampleSignature : Signature where
  create := ⟨⟨'c', ['r', 'e', 'a', 't', 'e'], by decide, List.all_eq_true.1 (by decide)⟩, by decide⟩
  orAlter := none
  routine := .procedure ⟨⟨'p', ['r', 'o', 'c', 'e', 'd', 'u', 'r', 'e'], by decide,
    List.all_eq_true.1 (by decide)⟩, by decide⟩
  name := .identifier ⟨⟨'p', [], by decide, by simp⟩, not_mem_reservedWords (by decide +kernel),
    by decide⟩
  furtherName := []
  parenthesised := false
  parameters :=
    [⟨⟨'a', [], by decide, by decide, by simp⟩,
        ⟨⟨'i', ['n', 't'], by decide, List.all_eq_true.1 (by decide)⟩,
          not_mem_reservedWords (by decide +kernel), by decide⟩, [], none⟩,
      ⟨⟨'b', [], by decide, by decide, by simp⟩,
        ⟨⟨'m', ['o', 'n', 'e', 'y'], by decide, List.all_eq_true.1 (by decide)⟩,
          not_mem_reservedWords (by decide +kernel), by decide⟩, [],
        some (.cents ⟨['1'], by decide, List.all_eq_true.1 (by decide)⟩
          ⟨['5', '0'], by decide, List.all_eq_true.1 (by decide)⟩)⟩]

/-- Tokens with a blank before each. -/
def spaced (tokens : List Written) : List Item :=
  tokens.map fun a => ⟨[.blank ' ' (by decide)], a⟩

theorem map_token_spaced (tokens : List Written) : (spaced tokens).map Item.token = tokens := by
  simp [spaced, Function.comp_def]

theorem separated_spaced (tokens : List Written) : Separated (spaced tokens) := by
  unfold Separated spaced
  induction tokens with
  | nil => exact .nil
  | cons a tokens ih =>
    refine List.isChain_cons.2 ⟨fun j hj => ?_, ih⟩
    cases tokens with
    | nil => cases hj
    | cons b tokens =>
      obtain rfl := Option.some.inj hj
      simp

/-! ## Top theorems (proved from the lemmas above) -/

/-- **The parameters of a signature are recovered** from every text that starts with it and goes on
with `RETURNS`, or with `AS` and a word that opens a clause: one for each declaration, in order,
with the name and the default as they are written. Anything may follow with which the text lexes,
or leaves a token. -/
theorem parameters_extract_signature (id : ObjectId) (sig : Signature) (close : Closing)
    (items : List Item) (rest : List Char)
    (hitems : items.map Item.token = sig.written ++ (close.before ++ [.word close.last]))
    (hsep : Separated items) (hrest : ∀ c ∈ rest.head?, isWordPart c = false)
    (hlex : (lex (textBefore items rest)).diagnostic = none ∨
      (lex (textBefore items rest)).tokens ≠ []) :
    (extract id (textBefore items rest)).parameters = sig.parameters.map (·.parameter id) := by
  have htouch := sig.isChain_written close.afterOperand
  rw [← List.append_assoc] at hitems htouch
  obtain ⟨-, -, qs, -, -, -, hparameters⟩ :=
    parameters_extract_textBefore id hitems hsep htouch close.two_le_length hrest hlex
  have hlast := close.last.role_eq_terminator_iff.2 close.upper_last_mem
  -- the list ends at the last word of the closing
  rw [hparameters, List.map_append, List.map_append, List.append_assoc, List.append_assoc,
    listOf_append sig.role_written_ne_terminator, listOf_append close.role_before_ne_terminator,
    List.map_singleton, List.singleton_append, listOf_cons, if_pos hlast, List.append_nil]
  exact close.declaredBy_signature id sig

/-- The parameters of the sample in front of a body with a variable of its own. -/
theorem parameters_extract_signature_sample :
    (extract 1 " create procedure p @a int , @b money = $1.50 as begin @c").parameters =
      [⟨1, "@a", ""⟩, ⟨1, "@b", "$1.50"⟩] := by
  have htext : textBefore
      (spaced (sampleSignature.written ++ (sampleClosing.before ++ [.word sampleClosing.last])))
      [' ', '@', 'c'] = " create procedure p @a int , @b money = $1.50 as begin @c" := by
    refine textBefore_eq ?_
    rw [show " create procedure p @a int , @b money = $1.50 as begin @c".toList = _ from
      String.toList_ofList]
    decide +kernel
  have hlex : (lex (textBefore
      (spaced (sampleSignature.written ++ (sampleClosing.before ++ [.word sampleClosing.last])))
      [' ', '@', 'c'])).diagnostic = none := by
    rw [lex, lexShowing, toList_textBefore]
    decide +kernel
  rw [← htext]
  exact parameters_extract_signature 1 sampleSignature sampleClosing _ _ (map_token_spaced _)
    (separated_spaced _) (by rintro _ ⟨⟩; decide) (Or.inl hlex)

/-- **What a body may hold.** Where a signature is closed by `AS` and the whole text lexes, its
parameters are recovered just if the body has no variable before its first terminator and the
default of the last parameter is the same in front of the tokens there. -/
theorem parameters_extract_body_iff (id : ObjectId) (sig : Signature) (as : Keyword "AS")
    (items : List Item) (body : List Char)
    (hitems : items.map Item.token = sig.written ++ [.word as.word])
    (hsep : Separated items) (hbody : ∀ c ∈ body.head?, isWordPart c = false)
    (hlex : (lex (textBefore items body)).diagnostic = none) :
    (extract id (textBefore items body)).parameters = sig.parameters.map (·.parameter id) ↔
      (∀ t ∈ listOf (lex (String.ofList body)).tokens, t.role ≠ .parameterMarker) ∧
      ∀ p ∈ sig.parameters.getLast?,
        p.defaultBefore (listOf (lex (String.ofList body)).tokens) = (p.parameter id).default := by
  have htouch : (sig.written ++ [Written.word as.word]).IsChain Written.MayTouch :=
    sig.isChain_written (afterOperand_cons rfl (.singleton _))
  have hupper : 2 ≤ as.word.upper.length := by rw [as.upper_eq]; decide
  obtain ⟨b, c, qs, hbc, hc, hcuts, hparameters⟩ :=
    parameters_extract_textBefore id hitems hsep htouch hupper hbody (Or.inl hlex)
  obtain rfl : body = b := by rw [hbc, hc hlex, List.append_nil]
  have htokens : (lex (String.ofList body)).tokens = joinAmounts qs := by
    rw [← String.toList_ofList (l := body)] at hcuts
    rw [lex, lexShowing_of_cuts _ hcuts]
  have hlist : ∀ t ∈ listOf (joinAmounts qs), t.text ≠ "" := fun t ht =>
    text_ne_empty_of_mem_joinAmounts qs hcuts.text_ne_nil t ((List.takeWhile_subset _) ht)
  obtain ⟨has, hafter⟩ := as.declared_as id sig.parameters (listOf (joinAmounts qs))
  rw [hparameters, htokens, List.map_append, List.append_assoc,
    listOf_append sig.role_written_ne_terminator, List.map_singleton, List.singleton_append,
    listOf_cons, if_neg (by simp [as.role_as]), sig.declaredBy_written, has, hafter,
    declaredParameters_append_eq_map_iff, declaredBy_eq_nil_iff id hlist]
  refine and_congr_right fun hmarker => ?_
  rw [segmentOf_eq_self hmarker]

/-- The parameters of the sample in front of a body whose variables come after its first
terminator. -/
theorem parameters_extract_body_sample :
    (extract 1 " create procedure p @a int , @b money = $1.50 as update [t] set x = @b").parameters
      = [⟨1, "@a", ""⟩, ⟨1, "@b", "$1.50"⟩] := by
  have htext : textBefore (spaced (sampleSignature.written ++ [.word sampleAs.word]))
      " update [t] set x = @b".toList =
        " create procedure p @a int , @b money = $1.50 as update [t] set x = @b" := by
    refine textBefore_eq ?_
    rw [show " update [t] set x = @b".toList = _ from String.toList_ofList,
      show " create procedure p @a int , @b money = $1.50 as update [t] set x = @b".toList = _ from
        String.toList_ofList]
    decide +kernel
  have hlex : (lex (textBefore (spaced (sampleSignature.written ++ [.word sampleAs.word]))
      " update [t] set x = @b".toList)).diagnostic = none := by
    rw [lex, lexShowing, toList_textBefore,
      show " update [t] set x = @b".toList = _ from String.toList_ofList]
    decide +kernel
  rw [← htext]
  refine (parameters_extract_body_iff 1 sampleSignature sampleAs _ _ (map_token_spaced _)
    (separated_spaced _) (by rintro _ ⟨⟩; decide) hlex).2 ⟨by decide +kernel, ?_⟩
  intro p hp
  obtain rfl := Option.some.inj hp
  decide +kernel

/-- Not every body of a procedure leaves its parameters alone: here the name of a table takes the
place of a default. -/
theorem not_forall_parameters_extract_body :
    ¬∀ (id : ObjectId) (sig : Signature) (as : Keyword "AS") (items : List Item)
      (body : List Char), sig.orAlter = none → (∃ k, sig.routine = .procedure k) →
      sig.parenthesised = false → items.map Item.token = sig.written ++ [.word as.word] →
      Separated items → (∀ c ∈ body.head?, isWordPart c = false) →
      (lex (textBefore items body)).diagnostic = none →
      (extract id (textBefore items body)).parameters = sig.parameters.map (·.parameter id) := by
  intro h
  have hsample := h 1 sampleSignature sampleAs
    (spaced (sampleSignature.written ++ [.word sampleAs.word])) " update t set x = 2".toList
    rfl ⟨_, rfl⟩ rfl (map_token_spaced _) (separated_spaced _) (by rintro _ ⟨⟩; decide) (by
      rw [lex, lexShowing, toList_textBefore,
        show " update t set x = 2".toList = _ from String.toList_ofList]
      decide +kernel)
  have hdefault : (extract 1
      (textBefore (spaced (sampleSignature.written ++ [.word sampleAs.word]))
        " update t set x = 2".toList)).parameters = [⟨1, "@a", ""⟩, ⟨1, "@b", "t"⟩] := by
    rw [extract, lex, lexShowing, toList_textBefore,
      show " update t set x = 2".toList = _ from String.toList_ofList]
    decide +kernel
  rw [hdefault] at hsample
  revert hsample
  decide +kernel

end RoutineParams
