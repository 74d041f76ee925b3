import RoutineParams.Toml.Reader
import RoutineParams.Toml.Writer

/-!
# TOML strings on one line

Between double quotes any string can be written, and is read: what is escaped is read from its
escape. Between single quotes nothing is escaped, and a string is read if it has no need of it.

    readBasic [] (escapeBasic false 0 0 s ++ '"' :: rest) = some (s, rest)  (readBasic_escapeBasic)
    readLiteral [] (s ++ '\'' :: rest) = some (s, rest)                          (readLiteral_append)
-/

namespace RoutineParams.Toml

/-! ## Definitions -/

/-- `e` is what follows the backslash in an escape of `c`. It does not continue a line. -/
def IsEscape (c : Char) (e : List Char) : Prop :=
  (∃ d t, e = d :: t ∧ isSpace d = false ∧ d ≠ '\n' ∧ d ≠ '\r') ∧
  ∀ s, escape? (e ++ s) = some (c, e.length - 1)

/-! ## Lemmas: characters -/

theorem isText_of_isControl {c : Char} (h : isControl c = false) (hline : c ≠ '\n') :
    isText c = true := by
  simp only [isControl, Bool.and_eq_false_iff, Bool.or_eq_false_iff, decide_eq_false_iff_not,
    bne_eq_false_iff_eq] at h
  rcases h with (h | rfl) | rfl
  · simp only [isText, Bool.or_eq_true, Bool.and_eq_true, decide_eq_true_eq, bne_iff_ne]
    exact Or.inr ⟨by omega, h.2⟩
  · rfl
  · exact absurd rfl hline

theorem hexChar?_digits {c : Char} (h : c.toNat < 0x80) :
    hexChar? ['0', '0', upperHexDigit (c.toNat / 16), upperHexDigit (c.toNat % 16)] = some c := by
  have hzero : hexValue? '0' = some 0 := by decide
  have hhigh := hexValue?_upperHexDigit (c.toNat / 16) (by omega)
  have hlow := hexValue?_upperHexDigit (c.toNat % 16) (by omega)
  have hread : readHex? ['0', '0', upperHexDigit (c.toNat / 16), upperHexDigit (c.toNat % 16)] =
      some c.toNat := by
    simp [readHex?, hzero, hhigh, hlow]
    omega
  rw [hexChar?, hread, Option.bind_eq_bind, Option.bind_some, if_pos (Or.inl (by omega)),
    Char.ofNat_toNat]

theorem isEscape_letter {c d : Char} (h : unescape? d = some c) (hspace : isSpace d = false)
    (hlower : d ≠ '\n') (hreturn : d ≠ '\r') (hu : d ≠ 'u') (hU : d ≠ 'U') : IsEscape c [d] := by
  refine ⟨⟨d, [], rfl, hspace, hlower, hreturn⟩, fun s => ?_⟩
  simp [escape?, hu, hU, h]

/-- **What is escaped is read** from its escape. -/
theorem exists_escapeChar {c : Char} (h : c.toNat < 0x80) :
    ∃ e, escapeChar c = '\\' :: e ∧ IsEscape c e := by
  by_cases hletter : c ∈ ['\x08', '\t', '\n', '\x0c', '\r', '\\', '"']
  · simp only [List.mem_cons, List.not_mem_nil, or_false] at hletter
    rcases hletter with rfl | rfl | rfl | rfl | rfl | rfl | rfl <;>
      exact ⟨_, rfl, isEscape_letter (by decide) (by decide) (by decide) (by decide) (by decide)
        (by decide)⟩
  · simp only [List.mem_cons, List.not_mem_nil, or_false, not_or] at hletter
    refine ⟨_, by simp [escapeChar, hletter]; rfl, ⟨'u', _, rfl, by decide⟩, fun s => ?_⟩
    simp [escape?, hexChar?_digits h]

theorem toNat_lt_of_needsEscape {long : Bool} {c : Char} (h : needsEscape long c = true) :
    c.toNat < 0x80 := by
  simp only [needsEscape, isControl, Bool.or_eq_true, Bool.and_eq_true, beq_iff_eq,
    decide_eq_true_eq] at h
  rcases h with ((rfl | rfl) | ⟨⟨h | h, -⟩, -⟩) | ⟨rfl, -⟩
  · decide
  · decide
  · omega
  · omega
  · decide

/-- What needs no escape stands for itself. -/
theorem isText_of_needsEscape {long : Bool} {c : Char} (h : needsEscape long c = false) :
    c ≠ '\\' ∧ c ≠ '\r' ∧ (isText c = true ∨ (c = '\n' ∧ long = true)) := by
  simp only [needsEscape, Bool.or_eq_false_iff, beq_eq_false_iff_ne, Bool.and_eq_false_iff,
    Bool.not_eq_false'] at h
  obtain ⟨⟨⟨hslash, -⟩, hcontrol⟩, hline⟩ := h
  refine ⟨hslash, ?_, ?_⟩
  · rintro rfl
    cases hcontrol
  · by_cases hc : c = '\n'
    · exact Or.inr ⟨hc, hline.resolve_left fun hne => hne hc⟩
    · exact Or.inl (isText_of_isControl hcontrol hc)

/-! ## Lemmas: strings on one line -/

section
variable (long : Bool) (free left : Nat) (s : List Char)

theorem escapeBasic_quote_zero : escapeBasic long free 0 ('"' :: s) =
    escapeChar '"' ++ escapeBasic long free free s := rfl

theorem escapeBasic_quote_succ : escapeBasic long free (left + 1) ('"' :: s) =
    '"' :: escapeBasic long free left s := rfl

theorem escapeBasic_of_ne {c : Char} (h : c ≠ '"') : escapeBasic long free left (c :: s) =
    (if needsEscape long c then escapeChar c else [c]) ++ escapeBasic long free free s := by
  rw [escapeBasic.eq_def]
  simp only [if_neg h]
  split <;> rfl

end

theorem readBasic_escape {c : Char} {e : List Char} (h : IsEscape c e) (done s : List Char) :
    readBasic done ('\\' :: (e ++ s)) = readBasic (c :: done) s := by
  obtain ⟨⟨d, t, rfl, -⟩, hread⟩ := h
  rw [readBasic, if_neg (by decide), if_pos rfl, hread]
  simp

theorem readBasic_plain {c : Char} (hquote : c ≠ '"') (hslash : c ≠ '\\') (htext : isText c = true)
    (done s : List Char) : readBasic done (c :: s) = readBasic (c :: done) s := by
  rw [readBasic, if_neg hquote, if_neg hslash, if_pos htext]

/-- **Any string is read from between double quotes.** -/
theorem readBasic_escapeBasic (done s rest : List Char) :
    readBasic done (escapeBasic false 0 0 s ++ '"' :: rest) =
      some (String.ofList (done.reverse ++ s), rest) := by
  have hescaped {c : Char} (h : c.toNat < 0x80) (done t : List Char) :
      readBasic done (escapeChar c ++ t) = readBasic (c :: done) t := by
    obtain ⟨e, he, hc⟩ := exists_escapeChar h
    rw [he]
    exact readBasic_escape hc done t
  induction s generalizing done with
  | nil => simp [escapeBasic, readBasic]
  | cons c s ih =>
    by_cases hquote : c = '"'
    · subst hquote
      rw [escapeBasic_quote_zero, List.append_assoc, hescaped (by decide), ih]
      simp
    · rw [escapeBasic_of_ne false 0 0 s hquote, List.append_assoc]
      cases hneeds : needsEscape false c with
      | true =>
        rw [if_pos rfl, hescaped (toNat_lt_of_needsEscape hneeds), ih]
        simp
      | false =>
        obtain ⟨hslash, -, htext⟩ := isText_of_needsEscape hneeds
        have htext : isText c = true := htext.resolve_right fun h => Bool.false_ne_true h.2
        rw [if_neg Bool.false_ne_true, List.singleton_append,
          readBasic_plain hquote hslash htext, ih]
        simp

/-- A string without single quotes and without characters that have to be escaped is read from
between single quotes. -/
theorem readLiteral_append (done : List Char) {s : List Char}
    (hs : ∀ c ∈ s, c ≠ '\'' ∧ isText c = true) (rest : List Char) :
    readLiteral done (s ++ '\'' :: rest) = some (String.ofList (done.reverse ++ s), rest) := by
  induction s generalizing done with
  | nil => simp [readLiteral]
  | cons c s ih =>
    obtain ⟨⟨hquote, htext⟩, hs⟩ := List.forall_mem_cons.1 hs
    rw [List.cons_append, readLiteral, if_neg hquote, if_pos htext, ih _ hs]
    simp

end RoutineParams.Toml
