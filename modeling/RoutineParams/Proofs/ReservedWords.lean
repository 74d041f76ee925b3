import RoutineParams.Proofs.Edges
import RoutineParams.Proofs.Keywords
import RoutineParams.Proofs.Occurrences
import Mathlib.Data.String.Basic

/-!
# Looking up reserved words

The table of reserved words is ascending, so halving it finds just the words that are in it. The
words with a kind of their own are all in it, so that an unquoted word is an identifier just if it
is not in it, and of all reserved words only `NULL` can be a default.

    table ascending → (standsBetween table w lo hi = true ↔ w stands there)        (standsBetween_iff)
    Kind.ofWord letters = .identifier ↔ upperCase letters ∉ reservedWords    (ofWord_eq_identifier_iff)
    isReservedWord w = true ↔ w ∈ reservedWords, and what follows            (isReservedWord_eq_true_iff)
-/

namespace RoutineParams

/-! ## Definitions -/

/-- A text in upper case. -/
def upperCase (s : List Char) : String := String.ofList (s.map Char.toUpper)

/-- Whether each word of a table comes before all that follow. -/
def IsAscending (table : Array String) : Prop := table.toList.Pairwise (· < ·)

/-! ## Lemmas: halving a table -/

theorem IsAscending.lt {table : Array String} (h : IsAscending table) {i j : Nat} (hij : i < j)
    (hj : j < table.size) : table[i] < table[j] := by
  have hlt := List.pairwise_iff_getElem.1 h i j (by simp; omega) (by simpa using hj) hij
  simpa using hlt

theorem IsAscending.le {table : Array String} (h : IsAscending table) {i j : Nat} (hij : i ≤ j)
    (hj : j < table.size) : table[i] ≤ table[j] := by
  rcases Nat.lt_or_eq_of_le hij with hlt | rfl
  · exact (h.lt hlt hj).le
  · exact le_rfl

/-- **Halving finds what stands in an ascending table,** and nothing else. -/
theorem standsBetween_iff {table : Array String} (hs : IsAscending table) {w : String} {lo hi : Nat}
    (hhi : hi ≤ table.size) :
    standsBetween table w lo hi = true ↔
      ∃ (i : Nat) (h : i < table.size), lo ≤ i ∧ i < hi ∧ table[i] = w := by
  fun_induction standsBetween table w lo hi with
  | case1 lo hi hbounds mid hmid heq =>
    exact iff_of_true rfl ⟨mid, hmid, by omega, by omega, heq⟩
  | case2 lo hi hbounds mid hmid hne hlt ih =>
    rw [ih hhi]
    constructor
    · rintro ⟨i, hsize, hlo, hi, hw⟩
      exact ⟨i, hsize, by omega, hi, hw⟩
    · rintro ⟨i, hsize, hlo, hi, rfl⟩
      -- the word stands behind the middle, which comes before it
      have hafter : mid < i := by
        by_contra hle
        exact absurd hlt (hs.le (Nat.le_of_not_lt hle) hmid).not_gt
      exact ⟨i, hsize, hafter, hi, rfl⟩
  | case3 lo hi hbounds mid hmid hne hlt ih =>
    rw [ih (by omega)]
    constructor
    · rintro ⟨i, hsize, hlo, hi, hw⟩
      exact ⟨i, hsize, hlo, by omega, hw⟩
    · rintro ⟨i, hsize, hlo, hi, rfl⟩
      have hbefore : i < mid := by
        by_contra hle
        rcases Nat.lt_or_eq_of_le (Nat.le_of_not_lt hle) with hmi | rfl
        · exact hlt (hs.lt hmi hsize)
        · exact hne rfl
      exact ⟨i, hsize, hlo, hbefore, rfl⟩
  | case4 lo hi hbounds =>
    refine iff_of_false Bool.false_ne_true ?_
    rintro ⟨i, -, hlo, hi, -⟩
    omega

theorem isAscending_reservedWords : IsAscending reservedWords := by
  have hchain : reservedWords.toList.IsChain (· < ·) := by decide +kernel
  exact List.isChain_iff_pairwise.1 hchain

theorem isReservedWord_iff {w : String} : isReservedWord w = true ↔ w ∈ reservedWords := by
  rw [isReservedWord, standsBetween_iff isAscending_reservedWords le_rfl, Array.mem_iff_getElem]
  constructor
  · rintro ⟨i, h, -, -, hw⟩
    exact ⟨i, h, hw⟩
  · rintro ⟨i, h, hw⟩
    exact ⟨i, h, Nat.zero_le i, h, hw⟩

/-! ## Lemmas: kinds of words -/

/-- The words that have a kind of their own. -/
def dedicatedWords : List String :=
  ["BEGIN", "DECLARE", "SELECT", "SET", "WITH", "CREATE", "PROC", "PROCEDURE", "FUNCTION", "AS",
    "NULL"]

theorem mem_reservedWords_of_mem_dedicatedWords : ∀ w ∈ dedicatedWords, w ∈ reservedWords := by
  have hlist : ∀ w ∈ dedicatedWords, w ∈ reservedWords.toList := by decide +kernel
  exact fun w hw => Array.mem_toList_iff.1 (hlist w hw)

theorem ofWord_eq (letters : List Char) :
    Kind.ofWord letters =
      if upperCase letters = "BEGIN" then .begin
      else if upperCase letters = "DECLARE" then .declare
      else if upperCase letters = "SELECT" then .select
      else if upperCase letters = "SET" then .set
      else if upperCase letters = "WITH" then .with
      else if upperCase letters = "CREATE" then .create
      else if upperCase letters = "PROC" ∨ upperCase letters = "PROCEDURE" then .procedure
      else if upperCase letters = "FUNCTION" then .function
      else if upperCase letters = "AS" then .as
      else if upperCase letters = "NULL" then .null
      else if isReservedWord (upperCase letters) then .reserved
      else .identifier := rfl

theorem ofWord_of_not_mem {letters : List Char} (h : upperCase letters ∉ dedicatedWords) :
    Kind.ofWord letters =
      if isReservedWord (upperCase letters) then .reserved else .identifier := by
  simp only [dedicatedWords, List.mem_cons, List.not_mem_nil, or_false, not_or] at h
  obtain ⟨h1, h2, h3, h4, h5, h6, h7, h8, h9, h10, h11⟩ := h
  rw [ofWord_eq, if_neg h1, if_neg h2, if_neg h3, if_neg h4, if_neg h5, if_neg h6, if_neg (not_or.2 ⟨h7, h8⟩),
    if_neg h9, if_neg h10, if_neg h11]

/-- A word with a kind of its own is no identifier, and no literal but for `NULL`. -/
theorem ofWord_of_mem {letters : List Char} (h : upperCase letters ∈ dedicatedWords) :
    Kind.ofWord letters ≠ .identifier ∧
      ((Kind.ofWord letters).role = .literalCandidate → upperCase letters = "NULL") := by
  simp only [dedicatedWords, List.mem_cons, List.not_mem_nil, or_false] at h
  rw [ofWord_eq]
  generalize upperCase letters = w at h
  rcases h with rfl | rfl | rfl | rfl | rfl | rfl | rfl | rfl | rfl | rfl | rfl <;> decide

/-- **A word is an identifier just if it is not reserved.** -/
theorem ofWord_eq_identifier_iff {letters : List Char} :
    Kind.ofWord letters = .identifier ↔ upperCase letters ∉ reservedWords := by
  by_cases hmem : upperCase letters ∈ dedicatedWords
  · exact iff_of_false (ofWord_of_mem hmem).1
      (not_not.2 (mem_reservedWords_of_mem_dedicatedWords _ hmem))
  · rw [ofWord_of_not_mem hmem, ← isReservedWord_iff]
    cases isReservedWord (upperCase letters) <;> decide

/-- A reserved word is no literal but for `NULL`. -/
theorem role_ofWord_of_mem {letters : List Char} (h : upperCase letters ∈ reservedWords)
    (hrole : (Kind.ofWord letters).role = .literalCandidate) : upperCase letters = "NULL" := by
  by_cases hmem : upperCase letters ∈ dedicatedWords
  · exact (ofWord_of_mem hmem).2 hrole
  · rw [ofWord_of_not_mem hmem, if_pos (isReservedWord_iff.2 h)] at hrole
    cases hrole

theorem ofLetters_of_head? {letters : List Char} (h : letters.head? ≠ some '@') :
    Kind.ofLetters letters = .ofWord letters := by
  cases letters with
  | nil => rfl
  | cons c t =>
    have hat : ('@' == c) = false := beq_eq_false_iff_ne.2 fun hc => h (by rw [hc]; rfl)
    simp [Kind.ofLetters, List.isPrefixOf, hat]

/-! ## Lemmas: reserved words in a text -/

/-- The letters of a reserved word. -/
def isReservedLetter (c : Char) : Bool := c.isUpper || c == '_'

theorem isReservedLetter_of_mem : ∀ w ∈ reservedWords,
    2 ≤ w.toList.length ∧ ∀ c ∈ w.toList, isReservedLetter c = true := by
  have hall : reservedWords.toList.all (fun w => decide (2 ≤ w.toList.length) &&
      w.toList.all isReservedLetter) = true := by decide +kernel
  intro w hw
  have hword := List.all_eq_true.1 hall w (Array.mem_toList_iff.2 hw)
  rw [Bool.and_eq_true, decide_eq_true_iff, List.all_eq_true] at hword
  exact hword

theorem toNat_lt_of_isReservedLetter {c : Char} (h : isReservedLetter c = true) :
    c.toNat < 128 := by
  rw [isReservedLetter, Bool.or_eq_true, beq_iff_eq] at h
  rcases h with h | rfl
  · have h : c.val ≥ 'A'.val ∧ c.val ≤ 'Z'.val := of_decide_eq_true h
    have hle := UInt32.le_iff_toNat_le.1 h.2
    have hcode : 'Z'.val.toNat = 90 := rfl
    unfold Char.toNat
    omega
  · decide

theorem isLetter_of_isReservedLetter {c : Char} (h : isReservedLetter c.toUpper = true) :
    isLetter c = true := by
  have hcodes : ∀ n, n < 128 → isReservedLetter (Char.ofNat n).toUpper = true →
      isLetter (Char.ofNat n) = true := by decide
  by_cases hn : c.toNat < 128
  · have := hcodes c.toNat hn
    rw [Char.ofNat_toNat] at this
    exact this h
  · rw [toUpper_of_le (by omega)] at h
    exact absurd (toNat_lt_of_isReservedLetter h) hn

/-- A reserved word, in any case, has at least two letters and nothing else. -/
theorem isLetter_of_upperCase {s : List Char} (h : upperCase s ∈ reservedWords) :
    ∃ c d t, s = c :: d :: t ∧ ∀ e ∈ s, isLetter e = true := by
  obtain ⟨hlength, hletters⟩ := isReservedLetter_of_mem _ h
  rw [upperCase, String.toList_ofList] at hlength hletters
  match s, hlength with
  | c :: d :: t, _ =>
    refine ⟨c, d, t, rfl, fun e he => isLetter_of_isReservedLetter ?_⟩
    exact hletters _ (List.mem_map_of_mem he)

/-- What a text of letters is cut from as a whole is a word. -/
theorem form_of_letters {c d : Char} {t s : List Char} {form : Form}
    (h : lexeme c (d :: (t ++ s)) = .ok ⟨form, t.length + 1⟩)
    (hletters : ∀ e ∈ c :: d :: t, isLetter e = true) : form = .word (c :: d :: t) := by
  have hquote : d ≠ '\'' := ne_of_class (hletters d (by simp)) (by decide)
  have hword := lexeme_letter (s := d :: (t ++ s)) (hletters c (by simp))
    fun _ hd => hquote (Option.some.inj hd)
  have htells := lexeme_tells h
  obtain ⟨rfl, -⟩ := Lexeme.mk.inj (Except.ok.inj (h.symm.trans hword))
  rw [htells.1]
  simp

/-- A token is that of a lexeme, or an amount that goes on behind one. -/
theorem exists_lexeme_of_mem {r s : List Char} {ps : List Piece} (h : Cuts r s ps) {t : Token}
    (ht : t ∈ joinAmounts ps) :
    ∃ c u rest form, lexeme c (u ++ rest) = .ok ⟨form, u.length⟩ ∧
      (t = ⟨form.kind, String.ofList (c :: u)⟩ ∨
        form.isMoney = true ∧ ∃ more, t = ⟨.money, String.ofList (c :: u ++ more)⟩) := by
  fun_induction joinAmounts ps generalizing s with
  | case1 => cases ht
  | case2 a =>
    obtain rfl := List.mem_singleton.1 ht
    cases h with
    | cons first => exact ⟨_, _, _, _, first, .inl rfl⟩
  | case3 a b ps hfraction ih =>
    cases h with
    | cons first hrest =>
      rcases List.mem_cons.1 ht with rfl | hmem
      · exact ⟨_, _, _, _, first, .inr ⟨(Bool.and_eq_true_iff.1 hfraction).1, _, rfl⟩⟩
      · cases hrest with
        | cons _ hrest => exact ih hrest hmem
  | case4 a b ps hfraction ih =>
    cases h with
    | cons first hrest =>
      rcases List.mem_cons.1 ht with rfl | hmem
      · exact ⟨_, _, _, _, first, .inl rfl⟩
      · exact ih hrest hmem

/-- No amount starts with a letter. -/
theorem isMoney_of_isLetter {c : Char} {s : List Char} {l : Lexeme} (hc : isLetter c = true)
    (h : lexeme c s = .ok l) : l.form.isMoney = false := by
  have hne : ∀ {d}, isLetter d = false → c ≠ d := fun hd => ne_of_class hc hd
  cases lexeme_eq_iff.1 h with
  | national _ _ hr | hexadecimal _ _ hr =>
    rw [form_quoted hr]
    rfl
  | word _ _ hr =>
    obtain rfl := Except.ok.inj hr
    rfl
  | blank hblank _ _ => exact absurd hblank (by simp [isBlank_of_isLetter hc])
  | number hdigit _ =>
    rcases hdigit with hdigit | hdot
    · exact absurd hdigit (by simp [isDigit_of_isLetter hc])
    · exact absurd hdot (hne (by decide))
  | sign _ _ hletter _ _ _ _ => exact absurd hc (by simp [hletter])
  | lineBreak hmark _ | string hmark _ | doubleQuoted hmark _ | bracketed hmark _
  | lineComment hmark _ _ | blockComment hmark _ _ _ | openComment hmark _ _ _
  | numberSign hmark _ | atSign hmark _ | dollarSign hmark _ | questionMark hmark _ =>
    exact absurd hmark (hne (by decide))

/-- A token that is a reserved word, in any case, has the kind of that word. -/
theorem kind_of_reserved {r s : List Char} {ps : List Piece} (h : Cuts r s ps) {t : Token}
    (ht : t ∈ joinAmounts ps) (hreserved : upperCase t.text.toList ∈ reservedWords) :
    t.kind = Kind.ofWord t.text.toList := by
  obtain ⟨c, u, rest, form, hlexeme, rfl | ⟨hmoney, more, rfl⟩⟩ := exists_lexeme_of_mem h ht
  · rw [String.toList_ofList] at hreserved ⊢
    obtain ⟨c', d, v, hcu, hletters⟩ := isLetter_of_upperCase hreserved
    obtain ⟨rfl, rfl⟩ := List.cons.inj hcu
    obtain rfl := form_of_letters hlexeme hletters
    refine ofLetters_of_head? fun hhead => ?_
    exact ne_of_class (hletters c (by simp)) (by decide) (Option.some.inj hhead)
  · rw [String.toList_ofList] at hreserved
    obtain ⟨c', d, v, hcu, hletters⟩ := isLetter_of_upperCase hreserved
    rw [isMoney_of_isLetter (hletters c (by simp)) hlexeme] at hmoney
    cases hmoney

/-- A default is the text of a literal, or there is none. -/
theorem exists_literal_of_mem_declaredBy {id : ObjectId} {tokens : List Token} {p : Parameter}
    (h : p ∈ declaredBy id tokens) :
    p.default = "" ∨ ∃ t ∈ tokens, t.role = .literalCandidate ∧ t.text = p.default := by
  induction tokens with
  | nil => cases h
  | cons t tokens ih =>
    rw [declaredBy_cons, List.mem_append] at h
    rcases h with h | h
    · split at h
      · unfold Declaration.close at h
        split at h
        · cases h
        · obtain rfl := List.mem_singleton.1 h
          refine (defaultIn_mem (segmentOf tokens)).imp_right ?_
          rintro ⟨u, hu, hrole, htext⟩
          exact ⟨u, List.mem_cons_of_mem t ((List.takeWhile_prefix _).subset hu), hrole, htext⟩
      · cases h
    · refine (ih h).imp_right ?_
      rintro ⟨u, hu, hrole⟩
      exact ⟨u, List.mem_cons_of_mem t hu, hrole⟩

theorem not_mem_of_identifier {source : String} {t : Token} (ht : t ∈ (lex source).tokens)
    (hkind : t.kind = .identifier) : upperCase t.text.toList ∉ reservedWords := by
  intro hreserved
  obtain ⟨a, r, ps, -, hcuts, htokens⟩ := exists_cuts_of_lex source
  rw [htokens] at ht
  exact ofWord_eq_identifier_iff.1 ((kind_of_reserved hcuts ht hreserved).symm.trans hkind) hreserved

theorem eq_null_of_default {id : ObjectId} {definition : String} {p : Parameter}
    (hp : p ∈ (extract id definition).parameters)
    (hreserved : upperCase p.default.toList ∈ reservedWords) :
    upperCase p.default.toList = "NULL" := by
  obtain ⟨a, r, ps, -, hcuts, htokens⟩ := exists_cuts_of_lex definition
  have hp : p ∈ (scanTokens id (lex definition).tokens).parameters := hp
  rw [parameters_scanTokens] at hp
  rcases exists_literal_of_mem_declaredBy hp with hempty | ⟨t, ht, hrole, htext⟩
  · rw [hempty] at hreserved
    exact absurd (isReservedLetter_of_mem _ hreserved).1 (by decide)
  · have ht := (List.takeWhile_prefix _).subset ht
    rw [htokens] at ht
    rw [← htext] at hreserved ⊢
    have hkind := kind_of_reserved hcuts ht hreserved
    refine role_ofWord_of_mem hreserved ?_
    rw [← hkind]
    unfold Token.role at hrole
    split at hrole
    · cases hrole
    · exact hrole

/-! ## Top theorem (proved from the lemmas above) -/

/-- **Reserved words are those of the table.** Halving finds a word just if it is in the table. An
unquoted word that does not start with the sign `@` is an identifier just if the table does not have
it in upper case; so no token that is an identifier is a reserved word in some case, and no reserved
word but `NULL` becomes a default. -/
theorem isReservedWord_eq_true_iff :
    (∀ w, isReservedWord w = true ↔ w ∈ reservedWords) ∧
      (∀ letters : List Char, letters.head? ≠ some '@' →
        ((Form.word letters).kind = .identifier ↔ upperCase letters ∉ reservedWords)) ∧
      (∀ source, ∀ t ∈ (lex source).tokens, t.kind = .identifier →
        upperCase t.text.toList ∉ reservedWords) ∧
      ∀ id definition, ∀ p ∈ (extract id definition).parameters,
        upperCase p.default.toList ∈ reservedWords → upperCase p.default.toList = "NULL" := by
  refine ⟨fun _ => isReservedWord_iff, fun letters hat => ?_, fun _ t ht => not_mem_of_identifier ht,
    fun _ _ _ hp => eq_null_of_default hp⟩
  rw [Form.kind, ofLetters_of_head? hat]
  exact ofWord_eq_identifier_iff

/-- `CURRENT_USER` comes before `CURSOR` and is found; `output` is an identifier, and `nUll` is a
default. -/
theorem isReservedWord_eq_true_iff_sample :
    isReservedWord "CURRENT_USER" = true ∧
      (Form.word "outPut".toList).kind = .identifier ∧
      (⟨.identifier, "outPut"⟩ ∈ (lex "@a = outPut").tokens ∧
        upperCase "outPut".toList ∉ reservedWords) ∧
      ⟨1, "@a", "nUll"⟩ ∈ (extract 1 "create proc p @a int = nUll").parameters ∧
      upperCase "nUll".toList ∈ reservedWords ∧ upperCase "nUll".toList = "NULL" := by
  obtain ⟨htable, hkind, htoken, hdefault⟩ := isReservedWord_eq_true_iff
  have houtput : upperCase "outPut".toList ∉ reservedWords :=
    not_mem_reservedWords (by decide +kernel)
  have hmem : ⟨.identifier, "outPut"⟩ ∈ (lex "@a = outPut").tokens := by decide +kernel
  have hparameter : ⟨1, "@a", "nUll"⟩ ∈ (extract 1 "create proc p @a int = nUll").parameters := by
    decide +kernel
  have hnull : upperCase "nUll".toList ∈ reservedWords :=
    Array.mem_toList_iff.1 (by decide +kernel)
  refine ⟨(htable _).2 (Array.mem_toList_iff.1 (by decide +kernel)),
    (hkind _ (by decide)).2 houtput, ⟨hmem, htoken _ _ hmem rfl⟩, hparameter, hnull,
    hdefault _ _ _ hparameter hnull⟩

end RoutineParams
