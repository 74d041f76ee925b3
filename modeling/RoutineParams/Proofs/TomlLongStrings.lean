import RoutineParams.Proofs.TomlShortStrings

/-!
# TOML strings over several lines

The quotes of a string over several lines are read three at a time, so the reader looks at up to
two of them that it has not read yet. Between double quotes any string is read, since no more than
two of its own stand together; between single quotes one that has no longer runs of them.

    readLongBasic [] (escapeBasic true 2 2 s ++ three quotes ++ rest) = some (s, rest)
                                                                       (readLongBasic_escapeBasic)
    readLongLiteral [] (s ++ three quotes ++ rest) = some (s, rest)       (readLongLiteral_append)
-/

namespace RoutineParams.Toml

/-! ## Definitions -/

/-- How a reader of strings over several lines takes quotes: three of them end the string, and any
other one belongs to it. -/
structure LongReader (quote : Char) where
  read : List Char → List Char → Option (String × List Char)
  read_close : ∀ done s, read done (quote :: quote :: quote :: s) = some (closeLong quote done s)
  read_quote : ∀ done s, (∀ t, s ≠ quote :: quote :: t) →
    read done (quote :: s) = read (quote :: done) s

/-- What follows a string: no quote, which would belong to it. -/
def EndsString (s : List Char) : Prop := ∀ c ∈ s.head?, c ≠ '"' ∧ c ≠ '\''

/-! ## Lemmas: quotes in strings over several lines -/

theorem takeWhile_replicate {q : Char} (j : Nat) {rest : List Char}
    (hrest : ∀ c ∈ rest.head?, c ≠ q) :
    (List.replicate j q ++ rest).takeWhile (· == q) = List.replicate j q := by
  have hstop : rest.takeWhile (· == q) = [] := by
    cases rest with
    | nil => rfl
    | cons c rest => simp [hrest c rfl]
  rw [List.takeWhile_append_of_pos (by simp), hstop, List.append_nil]

namespace LongReader
variable {q : Char} (r : LongReader q)

/-- Up to two quotes before the three that end a string belong to it. -/
theorem read_end {j : Nat} (hj : j ≤ 2) (done : List Char) {rest : List Char}
    (hrest : ∀ c ∈ rest.head?, c ≠ q) :
    r.read done (List.replicate j q ++ (List.replicate 3 q ++ rest)) =
      some (String.ofList (done.reverse ++ List.replicate j q), rest) := by
  have hquotes : List.replicate j q ++ (List.replicate 3 q ++ rest) =
      q :: q :: q :: (List.replicate j q ++ rest) := by
    rw [← List.append_assoc, List.replicate_append_replicate, Nat.add_comm j 3,
      ← List.replicate_append_replicate, List.append_assoc]
    rfl
  rw [hquotes, r.read_close, closeLong, takeWhile_replicate j hrest, List.length_replicate,
    Nat.min_eq_right hj]
  simp

/-- Up to two quotes before another character belong to a string. -/
theorem read_quotes {j : Nat} (hj : j ≤ 2) (done : List Char) {c : Char} (hc : c ≠ q)
    (s : List Char) :
    r.read done (List.replicate j q ++ c :: s) =
      r.read (List.replicate j q ++ done) (c :: s) := by
  have hone : ∀ done, r.read done (q :: c :: s) = r.read (q :: done) (c :: s) :=
    fun done => r.read_quote done _ fun t ht => hc (List.cons.inj ht).1
  match j, hj with
  | 0, _ => rfl
  | 1, _ => exact hone done
  | 2, _ =>
    refine (r.read_quote done (q :: c :: s) fun t ht => ?_).trans (hone (q :: done))
    exact hc (List.cons.inj (List.cons.inj ht).2).1

end LongReader

/-! ## Lemmas: strings over several lines -/

/-- Between double quotes. -/
def longBasic : LongReader '"' where
  read := readLongBasic
  read_close := fun done s => readLongBasic.eq_2 done s
  read_quote := fun done s h => by
    rw [readLongBasic.eq_5 _ _ _ (fun t _ ht => h t ht) (fun h => absurd h (by decide))
      (fun _ h => absurd h (by decide)), if_pos (Or.inr (by decide))]

/-- Between single quotes. -/
def longLiteral : LongReader '\'' where
  read := readLongLiteral
  read_close := fun done s => readLongLiteral.eq_2 done s
  read_quote := fun done s h => by
    rw [readLongLiteral.eq_4 _ _ _ (fun t _ ht => h t ht) (fun _ h => absurd h (by decide)),
      if_pos (Or.inr (by decide))]

theorem continuation_escape {c : Char} {e : List Char} (h : IsEscape c e) (s : List Char) :
    continuation (e ++ s) = 0 := by
  obtain ⟨⟨d, t, rfl, hspace, hline, hreturn⟩, -⟩ := h
  have hnone : afterNewline? (d :: (t ++ s)) = none := by
    unfold afterNewline?
    split
    · exact absurd (List.cons.inj ‹_›).1 hline
    · exact absurd (List.cons.inj ‹_›).1 hreturn
    · rfl
  simp [continuation, hspace, hnone]

theorem readLongBasic_escape {c : Char} {e : List Char} (h : IsEscape c e) (done s : List Char) :
    readLongBasic done ('\\' :: (e ++ s)) = readLongBasic (c :: done) s := by
  rw [readLongBasic.eq_3, continuation_escape h]
  obtain ⟨⟨d, t, rfl, -⟩, hread⟩ := h
  simp only [hread]
  simp

theorem readLongBasic_plain {c : Char} (hquote : c ≠ '"') (hslash : c ≠ '\\') (hreturn : c ≠ '\r')
    (htext : c = '\n' ∨ isText c = true) (done s : List Char) :
    readLongBasic done (c :: s) = readLongBasic (c :: done) s := by
  rw [readLongBasic.eq_5 _ _ _ (fun _ h => absurd h hquote) (fun h => absurd h hslash)
    (fun _ h => absurd h hreturn), if_pos htext]

/-- **Any string is read from between three double quotes**, `j` of its own being read with it. -/
theorem readLongBasic_escapeBasic {j left : Nat} (hj : j + left = 2) (done s : List Char)
    {rest : List Char} (hrest : EndsString rest) :
    readLongBasic done (List.replicate j '"' ++
        (escapeBasic true 2 left s ++ (List.replicate 3 '"' ++ rest))) =
      some (String.ofList (done.reverse ++ (List.replicate j '"' ++ s)), rest) := by
  have hle : j ≤ 2 := by omega
  have hescaped {j : Nat} (hj : j ≤ 2) {c : Char} (h : c.toNat < 0x80) (done t : List Char) :
      readLongBasic done (List.replicate j '"' ++ (escapeChar c ++ t)) =
        readLongBasic (c :: (List.replicate j '"' ++ done)) t := by
    obtain ⟨e, he, hc⟩ := exists_escapeChar h
    rw [he, List.cons_append]
    exact (longBasic.read_quotes hj done (by decide) _).trans (readLongBasic_escape hc _ t)
  induction s generalizing j left done with
  | nil =>
    rw [escapeBasic, List.nil_append, List.append_nil]
    exact longBasic.read_end hle done fun c hc => (hrest c hc).1
  | cons c s ih =>
    by_cases hquote : c = '"'
    · subst hquote
      cases left with
      | zero =>
        -- no more quotes may stand together: this one is escaped, and those after it are free
        rw [escapeBasic_quote_zero, List.append_assoc, hescaped hle (by decide)]
        refine (ih (j := 0) rfl _ (by decide)).trans ?_
        simp
      | succ left =>
        have hquotes (t : List Char) :
            List.replicate j '"' ++ '"' :: t = List.replicate (j + 1) '"' ++ t := by
          rw [List.replicate_succ']
          simp
        rw [escapeBasic_quote_succ, List.cons_append, hquotes, ih (by omega) _ (by omega)]
        simp [hquotes]
    · rw [escapeBasic_of_ne true 2 left s hquote, List.append_assoc]
      cases hneeds : needsEscape true c with
      | true =>
        rw [if_pos rfl, hescaped hle (toNat_lt_of_needsEscape hneeds)]
        refine (ih (j := 0) rfl _ (by decide)).trans ?_
        simp
      | false =>
        obtain ⟨hslash, hreturn, htext⟩ := isText_of_needsEscape hneeds
        have htext : c = '\n' ∨ isText c = true := htext.symm.imp_left And.left
        rw [if_neg Bool.false_ne_true, List.singleton_append]
        refine (longBasic.read_quotes hle done hquote _).trans ?_
        refine (readLongBasic_plain hquote hslash hreturn htext _ _).trans ?_
        refine (ih (j := 0) rfl _ (by decide)).trans ?_
        simp

/-! ## Lemmas: runs of quotes -/

theorem le_longestRun (c : Char) (n best : Nat) (s : List Char) :
    n ≤ longestRun c n best s ∧ best ≤ longestRun c n best s := by
  induction s generalizing n best with
  | nil => exact ⟨Nat.le_max_right best n, Nat.le_max_left best n⟩
  | cons d s ih =>
    rw [longestRun]
    split
    · have hnext := ih (n + 1) best
      omega
    · have hnext := ih 0 (max best n)
      omega

theorem not_mem_of_longestRun {c : Char} {best : Nat} {s : List Char}
    (h : longestRun c 0 best s = 0) : c ∉ s := by
  induction s generalizing best with
  | nil => exact List.not_mem_nil
  | cons d s ih =>
    rw [longestRun] at h
    split at h
    · have hle := le_longestRun c (0 + 1) best s
      omega
    · next hne => exact List.not_mem_cons_of_ne_of_not_mem (Ne.symm hne) (ih h)

/-- A string without longer runs of single quotes is read from between three of them, `j` of its
own being read with it. -/
theorem readLongLiteral_append {j best : Nat} (done : List Char) {s rest : List Char}
    (hrun : longestRun '\'' j best s ≤ 2) (hs : ∀ c ∈ s, isControl c = false)
    (hrest : EndsString rest) :
    readLongLiteral done (List.replicate j '\'' ++ (s ++ (List.replicate 3 '\'' ++ rest))) =
      some (String.ofList (done.reverse ++ (List.replicate j '\'' ++ s)), rest) := by
  have hle : j ≤ 2 := Nat.le_trans (le_longestRun '\'' j best s).1 hrun
  induction s generalizing j best done with
  | nil =>
    rw [List.nil_append, List.append_nil]
    exact longLiteral.read_end hle done fun c hc => (hrest c hc).2
  | cons c s ih =>
    obtain ⟨hcontrol, hcontrols⟩ := List.forall_mem_cons.1 hs
    rw [longestRun] at hrun
    by_cases hquote : c = '\''
    · subst hquote
      rw [if_pos rfl] at hrun
      have hquotes (t : List Char) :
          List.replicate j '\'' ++ '\'' :: t = List.replicate (j + 1) '\'' ++ t := by
        rw [List.replicate_succ']
        simp
      have hnext : j + 1 ≤ 2 := Nat.le_trans (le_longestRun '\'' (j + 1) best s).1 hrun
      rw [List.cons_append, hquotes, ih done hrun hcontrols hnext, hquotes]
    · rw [if_neg hquote] at hrun
      have hreturn : c ≠ '\r' := by
        rintro rfl
        cases hcontrol
      have htext : c = '\n' ∨ isText c = true :=
        (Classical.em (c = '\n')).imp_right (isText_of_isControl hcontrol)
      refine (longLiteral.read_quotes hle done hquote _).trans ?_
      refine (readLongLiteral.eq_4 _ _ _ (fun _ h => absurd h hquote)
        (fun _ h => absurd h hreturn)).trans ?_
      rw [if_pos htext]
      refine (ih (j := 0) _ hrun hcontrols (by decide)).trans ?_
      simp

end RoutineParams.Toml
