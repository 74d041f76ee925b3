import RoutineParams.Proofs.Signature

/-!
# What a signature declares

The tokens of a signature declare its parameters, whatever comes before the next terminator. What
comes there has a say only in the default of the last parameter, and in what is declared after it.

    declaredBy id (the tokens of sig ++ after) =
      declaredParameters id sig.parameters (segmentOf after) ++ declaredBy id after
                                                            (Signature.declaredBy_written)
-/

namespace RoutineParams

/-! ## The rule -/

/-- The default of a parameter whose declaration is followed by a segment: a literal in the segment
takes the place of a default, and a sign `=` and a literal make one. -/
def FormalParameter.defaultBefore (p : FormalParameter) (segment : List Token) : String :=
  match p.default with
  | some l => (lastLiteral? segment).getD (String.ofList l.text)
  | none => defaultIn segment

/-- The parameters that are declared where a segment follows the last of them. -/
def declaredParameters (id : ObjectId) :
    (ps : List FormalParameter) → (segment : List Token) → List Parameter
  | [], _ => []
  | [p], segment => [⟨id, String.ofList p.name.text, p.defaultBefore segment⟩]
  | p :: q :: ps, segment => p.parameter id :: declaredParameters id (q :: ps) segment

/-! ## Lemmas: lists of tokens -/

theorem listOf_append {a : List Token} (h : ∀ t ∈ a, t.role ≠ .terminator) (b : List Token) :
    listOf (a ++ b) = a ++ listOf b :=
  List.takeWhile_append_of_pos (by simpa using h)

theorem segmentOf_append {a : List Token} (h : ∀ t ∈ a, t.role ≠ .parameterMarker)
    (b : List Token) : segmentOf (a ++ b) = a ++ segmentOf b :=
  List.takeWhile_append_of_pos (by simpa using h)

theorem declaredBy_append (id : ObjectId) {a : List Token}
    (h : ∀ t ∈ a, t.role ≠ .parameterMarker) (b : List Token) :
    declaredBy id (a ++ b) = declaredBy id b := by
  induction a with
  | nil => rfl
  | cons t a ih =>
    rw [List.cons_append, declaredBy_cons, if_neg (h t List.mem_cons_self), List.nil_append]
    exact ih fun u hu => h u (List.mem_cons_of_mem t hu)

theorem segmentOf_eq_self {list : List Token} (h : ∀ t ∈ list, t.role ≠ .parameterMarker) :
    segmentOf list = list := by
  have hself := segmentOf_append h []
  have hnil : segmentOf [] = [] := rfl
  rwa [hnil, List.append_nil] at hself

/-- No parameter is declared just if there is no marker, where markers are not empty. -/
theorem declaredBy_eq_nil_iff (id : ObjectId) {list : List Token} (h : ∀ t ∈ list, t.text ≠ "") :
    declaredBy id list = [] ↔ ∀ t ∈ list, t.role ≠ .parameterMarker := by
  induction list with
  | nil => simp [declaredBy_nil]
  | cons t list ih =>
    have ht := h t List.mem_cons_self
    rw [declaredBy_cons, List.append_eq_nil_iff, ih fun u hu => h u (List.mem_cons_of_mem t hu)]
    by_cases hm : t.role = .parameterMarker <;> simp [hm, Declaration.close, ht]

/-! ## Lemmas: roles -/

/-- A token that neither ends a parameter list nor opens a declaration. -/
def Token.IsInert (t : Token) : Prop := t.role ≠ .terminator ∧ t.role ≠ .parameterMarker

theorem isInert_of_role {t : Token} (h : t.role = .other) : t.IsInert := by
  simp [Token.IsInert, h]

theorem isInert_word {w : Word} (h : w.upper ∉ "RETURNS" :: openers) :
    (Written.word w).token.IsInert :=
  ⟨fun hrole => h (w.role_eq_terminator_iff.1 hrole), w.role_ne_parameterMarker⟩

theorem isInert_keyword {upper : String} (k : Keyword upper) (h : upper ∉ "RETURNS" :: openers) :
    (Written.word k.word).token.IsInert :=
  isInert_word (by rwa [k.upper_eq])

theorem isInert_identifier (i : Identifier) : (Written.word i.word).token.IsInert := by
  refine isInert_word fun h => ?_
  rcases List.mem_cons.1 h with h | h
  · exact i.upper_ne h
  · exact i.upper_not_mem (mem_reservedWords_of_mem_openers _ h)

/-- Every literal may be a default. -/
theorem role_literal (l : Literal) : (Written.literal l).token.role = .literalCandidate := by
  match l with
  | .numeral n =>
    simp only [Token.role, Token.isReturns, Written.token, Written.kind, Kind.ofFigures]
    split
    · rfl
    · split <;> rfl
  | .null k =>
    have hkind : Kind.ofWord k.word.letters = .null := by
      rw [Word.ofWord_letters, k.upper_eq]
      rfl
    simp [Token.role, Token.isReturns, Written.token, Written.kind, hkind, Kind.role]
  | .string _ | .national _ | .hex _ _ | .money _ | .cents _ _ => rfl

theorem isInert_literal (l : Literal) : (Written.literal l).token.IsInert := by
  simp [Token.IsInert, role_literal]

theorem isAssignment_of_role {t : Token} (h : t.role ≠ .other) : t.isAssignment = false := by
  cases ha : t.isAssignment with
  | false => rfl
  | true => exact absurd (role_of_isAssignment ha) h

/-- Where nothing follows a parameter has its own default. -/
theorem FormalParameter.defaultBefore_nil (p : FormalParameter) (id : ObjectId) :
    p.defaultBefore [] = (p.parameter id).default := by
  unfold defaultBefore parameter
  cases p.default <;> rfl

/-- A token that is neither the sign `=` nor a literal has no say in a default. -/
theorem defaultBefore_cons (p : FormalParameter) {t : Token} (hrole : t.role ≠ .literalCandidate)
    (ha : t.isAssignment = false) (segment : List Token) :
    p.defaultBefore (t :: segment) = p.defaultBefore segment := by
  unfold FormalParameter.defaultBefore
  split
  · rw [lastLiteral?_cons, if_neg hrole, Option.or_none]
  · simp [defaultIn, ha]

/-! ## Lemmas: one parameter -/

/-- Every token of a type: no end, no marker and no sign `=`. -/
theorem isInert_argument (a : TypeArgument) :
    a.written.token.IsInert ∧ a.written.token.isAssignment = false := by
  cases a with
  | size d =>
    refine ⟨isInert_literal _, isAssignment_of_role ?_⟩
    simp [TypeArgument.written, role_literal]
  | max k => exact ⟨isInert_keyword k (by decide), k.word.isAssignment_eq_false⟩

theorem isInert_furtherArguments (as : List TypeArgument) :
    ∀ a ∈ furtherArguments as, a.token.IsInert ∧ a.token.isAssignment = false := by
  induction as with
  | nil =>
    intro a ha
    obtain rfl := List.mem_singleton.1 ha
    exact ⟨isInert_of_role rfl, rfl⟩
  | cons b as ih =>
    intro a ha
    rcases List.mem_cons.1 ha with rfl | ha
    · exact ⟨isInert_of_role rfl, rfl⟩
    rcases List.mem_cons.1 ha with rfl | ha
    · exact isInert_argument b
    · exact ih a ha

namespace FormalParameter

theorem isInert_type (p : FormalParameter) :
    ∀ a ∈ p.typeWritten, a.token.IsInert ∧ a.token.isAssignment = false := by
  intro a ha
  rcases List.mem_cons.1 ha with rfl | ha
  · exact ⟨isInert_identifier p.type, p.type.word.isAssignment_eq_false⟩
  cases hargs : p.arguments with
  | nil => rw [hargs] at ha; cases ha
  | cons b as =>
    rw [hargs] at ha
    rcases List.mem_cons.1 ha with rfl | ha
    · exact ⟨isInert_of_role rfl, rfl⟩
    rcases List.mem_cons.1 ha with rfl | ha
    · exact isInert_argument b
    · exact isInert_furtherArguments as a ha

theorem isInert_default (p : FormalParameter) : ∀ a ∈ p.defaultWritten, a.token.IsInert := by
  intro a ha
  unfold defaultWritten at ha
  split at ha
  · rcases List.mem_cons.1 ha with rfl | ha
    · exact isInert_of_role rfl
    · obtain rfl := List.mem_singleton.1 ha
      exact isInert_literal _
  · cases ha

theorem role_name (p : FormalParameter) :
    (Written.localVariable p.name).token.role = .parameterMarker := rfl

/-- The default of a parameter, by what follows its declaration. -/
theorem defaultIn_written (p : FormalParameter) (segment : List Token) :
    defaultIn ((p.typeWritten ++ p.defaultWritten).map Written.token ++ segment) =
      p.defaultBefore segment := by
  have htype : ∀ t ∈ p.typeWritten.map Written.token, (!t.isAssignment) = true := by
    intro t ht
    obtain ⟨a, ha, rfl⟩ := List.mem_map.1 ht
    simp [(p.isInert_type a ha).2]
  rw [List.map_append, List.append_assoc, defaultIn, List.dropWhile_append_of_pos htype]
  unfold defaultBefore defaultWritten
  cases p.default with
  | none => rfl
  | some l =>
    have hequals : Written.equals.token.isAssignment = true := rfl
    have hrole : Written.equals.token.role = .other := role_of_isAssignment hequals
    simp only [List.map_cons, List.map_nil, List.cons_append, List.nil_append,
      List.dropWhile_cons, hequals, Bool.not_true, Bool.false_eq_true, if_false,
      lastLiteral?_cons, hrole, role_literal, if_true, reduceCtorEq, Option.or_none]
    cases lastLiteral? segment <;> rfl

/-- The tokens of a declaration declare its parameter. -/
theorem declaredBy_written (id : ObjectId) (p : FormalParameter) (after : List Token) :
    declaredBy id (p.written.map Written.token ++ after) =
      ⟨id, String.ofList p.name.text, p.defaultBefore (segmentOf after)⟩ ::
        declaredBy id after := by
  have hinert : ∀ t ∈ (p.typeWritten ++ p.defaultWritten).map Written.token,
      t.role ≠ .parameterMarker := by
    intro t ht
    obtain ⟨a, ha, rfl⟩ := List.mem_map.1 ht
    rcases List.mem_append.1 ha with ha | ha
    · exact (p.isInert_type a ha).1.2
    · exact (p.isInert_default a ha).2
  have hname : String.ofList p.name.text ≠ "" := by simp [VariableName.text]
  rw [written, List.map_cons, List.cons_append, declaredBy_cons, if_pos p.role_name,
    segmentOf_append hinert, defaultIn_written, declaredBy_append id hinert, Declaration.close]
  exact congrArg (· ++ _) (if_neg hname)

theorem role_written_ne_terminator (p : FormalParameter) :
    ∀ a ∈ p.written, a.token.role ≠ .terminator := by
  intro a ha
  rcases List.mem_cons.1 ha with rfl | ha
  · simp [p.role_name]
  rcases List.mem_append.1 ha with ha | ha
  · exact (p.isInert_type a ha).1.1
  · exact (p.isInert_default a ha).1

end FormalParameter

/-! ## Lemmas: all parameters -/

theorem declaredBy_furtherParameters (id : ObjectId) (p : FormalParameter)
    (ps : List FormalParameter) (after : List Token) :
    declaredBy id ((p.written ++ furtherParameters ps).map Written.token ++ after) =
      declaredParameters id (p :: ps) (segmentOf after) ++ declaredBy id after := by
  induction ps generalizing p with
  | nil =>
    rw [furtherParameters, List.append_nil, p.declaredBy_written]
    rfl
  | cons q ps ih =>
    -- between two declarations only a comma stands
    have hsegment : segmentOf (Written.comma.token ::
        ((q.written ++ furtherParameters ps).map Written.token ++ after)) =
        [Written.comma.token] := by
      rw [segmentOf_cons, if_neg (isInert_of_role rfl).2, FormalParameter.written]
      simp [segmentOf_cons, q.role_name]
    have hdefault : p.defaultBefore [Written.comma.token] = (p.parameter id).default := by
      rw [defaultBefore_cons p (by decide) rfl, p.defaultBefore_nil id]
    have hcomma : ∀ tokens, declaredBy id (Written.comma.token :: tokens) = declaredBy id tokens :=
      declaredBy_append id (a := [Written.comma.token]) (by simpa using (isInert_of_role rfl).2)
    rw [furtherParameters, List.map_append, List.append_assoc, p.declaredBy_written, List.map_cons,
      List.cons_append, hsegment, hdefault, hcomma, ih]
    rfl

theorem declaredParameters_cons (id : ObjectId) (ps : List FormalParameter) {t : Token}
    (hrole : t.role ≠ .literalCandidate) (ha : t.isAssignment = false) (segment : List Token) :
    declaredParameters id ps (t :: segment) = declaredParameters id ps segment := by
  fun_induction declaredParameters id ps segment with
  | case1 => rfl
  | case2 p segment => rw [declaredParameters, defaultBefore_cons p hrole ha]
  | case3 p q ps segment ih => rw [declaredParameters, ih]

theorem length_declaredParameters (id : ObjectId) (ps : List FormalParameter)
    (segment : List Token) : (declaredParameters id ps segment).length = ps.length := by
  fun_induction declaredParameters id ps segment with
  | case1 => rfl
  | case2 => rfl
  | case3 p q ps segment ih => simp [ih]

/-- The parameters are declared as they are written just if the last default stays. -/
theorem declaredParameters_eq_map_iff (id : ObjectId) (ps : List FormalParameter)
    (segment : List Token) :
    declaredParameters id ps segment = ps.map (·.parameter id) ↔
      ∀ p ∈ ps.getLast?, p.defaultBefore segment = (p.parameter id).default := by
  fun_induction declaredParameters id ps segment with
  | case1 => simp
  | case2 p segment => simp [FormalParameter.parameter]
  | case3 p q ps segment ih => rw [List.map_cons, List.cons_inj_right, ih, List.getLast?_cons_cons]

theorem declaredParameters_nil (id : ObjectId) (ps : List FormalParameter) :
    declaredParameters id ps [] = ps.map (·.parameter id) := by
  rw [declaredParameters_eq_map_iff]
  exact fun p _ => p.defaultBefore_nil id

/-- Nothing but the parameters of a signature is declared just if nothing follows them and the last
default stays. -/
theorem declaredParameters_append_eq_map_iff (id : ObjectId) (ps : List FormalParameter)
    (segment : List Token) (more : List Parameter) :
    declaredParameters id ps segment ++ more = ps.map (·.parameter id) ↔
      more = [] ∧ ∀ p ∈ ps.getLast?, p.defaultBefore segment = (p.parameter id).default := by
  rw [← declaredParameters_eq_map_iff]
  constructor
  · intro h
    have hlength := congrArg List.length h
    rw [List.length_append, length_declaredParameters, List.length_map] at hlength
    have hmore : more = [] := List.length_eq_zero_iff.1 (by omega)
    rw [hmore, List.append_nil] at h
    exact ⟨hmore, h⟩
  · rintro ⟨rfl, h⟩
    rw [List.append_nil, h]

theorem role_furtherParameters_ne_terminator (ps : List FormalParameter) :
    ∀ a ∈ furtherParameters ps, a.token.role ≠ .terminator := by
  induction ps with
  | nil => simp [furtherParameters]
  | cons p ps ih =>
    intro a ha
    rcases List.mem_cons.1 ha with rfl | ha
    · exact (isInert_of_role rfl).1
    rcases List.mem_append.1 ha with ha | ha
    · exact p.role_written_ne_terminator a ha
    · exact ih a ha

/-! ## Lemmas: the rest of a signature -/

theorem isInert_part (part : NamePart) : part.written.token.IsInert := by
  cases part with
  | identifier i => exact isInert_identifier i
  | bracketed text => exact isInert_of_role rfl

theorem isInert_furtherName (parts : List NamePart) :
    ∀ a ∈ furtherNameWritten parts, a.token.IsInert := by
  induction parts with
  | nil => simp [furtherNameWritten]
  | cons part parts ih =>
    intro a ha
    rcases List.mem_cons.1 ha with rfl | ha
    · exact isInert_of_role rfl
    rcases List.mem_cons.1 ha with rfl | ha
    · exact isInert_part part
    · exact ih a ha

namespace Signature

theorem isInert_openingWords (sig : Signature) :
    ∀ w ∈ sig.openingWords, (Written.word w).token.IsInert := by
  have hroutine : (Written.word sig.routine.word).token.IsInert := by
    cases sig.routine with
    | procedure k => exact isInert_keyword k (by decide)
    | function k => exact isInert_keyword k (by decide)
  intro w hw
  rcases List.mem_cons.1 hw with rfl | hw
  · exact isInert_keyword sig.create (by decide)
  rcases List.mem_append.1 hw with hw | hw
  · split at hw
    · next or alter _ =>
      rcases List.mem_cons.1 hw with rfl | hw
      · exact isInert_keyword or (by decide)
      · obtain rfl := List.mem_singleton.1 hw
        exact isInert_keyword alter (by decide)
    · cases hw
  · obtain rfl := List.mem_singleton.1 hw
    exact hroutine

theorem isInert_opening (sig : Signature) : ∀ a ∈ sig.opening, a.token.IsInert := by
  intro a ha
  rcases List.mem_append.1 ha with ha | ha
  · obtain ⟨w, hw, rfl⟩ := List.mem_map.1 ha
    exact sig.isInert_openingWords w hw
  rcases List.mem_cons.1 ha with rfl | ha
  · exact isInert_part sig.name
  · exact isInert_furtherName sig.furtherName a ha

/-- No token of a signature ends the parameter list. -/
theorem role_written_ne_terminator (sig : Signature) :
    ∀ t ∈ sig.written.map Written.token, t.role ≠ .terminator := by
  intro t ht
  obtain ⟨a, ha, rfl⟩ := List.mem_map.1 ht
  rcases List.mem_append.1 ha with ha | ha
  · exact (sig.isInert_opening a ha).1
  rcases List.mem_append.1 ha with ha | ha
  · split at ha
    · obtain rfl := List.mem_singleton.1 ha
      exact (isInert_of_role rfl).1
    · cases ha
  rcases List.mem_append.1 ha with ha | ha
  · cases hps : sig.parameters with
    | nil => rw [hps] at ha; cases ha
    | cons p ps =>
      rw [hps] at ha
      rcases List.mem_append.1 ha with ha | ha
      · exact p.role_written_ne_terminator a ha
      · exact role_furtherParameters_ne_terminator ps a ha
  · unfold closing at ha
    split at ha
    · obtain rfl := List.mem_singleton.1 ha
      exact (isInert_of_role rfl).1
    · cases ha

/-! ## Top theorem (proved from the lemmas above) -/

/-- **A signature declares its parameters.** What follows it has a say in the default of the last
one and in what is declared after it. -/
theorem declaredBy_written (id : ObjectId) (sig : Signature) (after : List Token) :
    declaredBy id (sig.written.map Written.token ++ after) =
      declaredParameters id sig.parameters (segmentOf after) ++ declaredBy id after := by
  have hopening : ∀ t ∈ sig.opening.map Written.token, t.role ≠ .parameterMarker := by
    intro t ht
    obtain ⟨a, ha, rfl⟩ := List.mem_map.1 ht
    exact (sig.isInert_opening a ha).2
  have hparen : ∀ t ∈ (if sig.parenthesised then [Written.leftParen] else []).map Written.token,
      t.role ≠ .parameterMarker := by
    intro t ht
    split at ht
    · obtain rfl := List.mem_singleton.1 ht
      exact (isInert_of_role rfl).2
    · cases ht
  have hclosing : ∀ tokens, declaredParameters id sig.parameters
        (segmentOf (sig.closing.map Written.token ++ tokens)) =
          declaredParameters id sig.parameters (segmentOf tokens) ∧
      declaredBy id (sig.closing.map Written.token ++ tokens) = declaredBy id tokens := by
    intro tokens
    unfold closing
    split
    · refine ⟨?_, declaredBy_append id (by simpa using (isInert_of_role rfl).2) tokens⟩
      rw [List.map_singleton, List.singleton_append, segmentOf_cons,
        if_neg (isInert_of_role rfl).2, declaredParameters_cons id _ (by decide) rfl]
    · exact ⟨rfl, rfl⟩
  rw [written, List.map_append, List.map_append, List.map_append, List.append_assoc,
    List.append_assoc, List.append_assoc, declaredBy_append id hopening,
    declaredBy_append id hparen]
  cases hps : sig.parameters with
  | nil => exact (hclosing after).2
  | cons p ps =>
    rw [hps] at hclosing
    rw [parametersWritten, declaredBy_furtherParameters, (hclosing after).1, (hclosing after).2]

end Signature

end RoutineParams
