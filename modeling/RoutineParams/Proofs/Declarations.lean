import Mathlib.Data.List.Basic
import RoutineParams.Parameter

/-!
# What a parameter list declares

The one pass of `scanTokens` against the rule it follows. The parameter list is the tokens before
the first terminator. Every marker in it that has a name declares one parameter, and its default is
the last literal after the first sign `=` among the tokens up to the next marker.

    scanTokens id tokens = ⟨declaredBy id (listOf tokens), stopOf tokens⟩           (scanTokens_eq)
-/

namespace RoutineParams

/-! ## The rule -/

/-- The parameter list: the tokens before the first terminator. -/
def listOf (tokens : List Token) : List Token := tokens.takeWhile (·.role ≠ .terminator)

/-- Where the parameter list ends. -/
def stopOf (tokens : List Token) : Stop :=
  match tokens.find? (·.role = .terminator) with
  | some t => .terminator (listOf tokens).length t.text
  | none => .endOfTokens

/-- The tokens up to the next marker. -/
def segmentOf (tokens : List Token) : List Token := tokens.takeWhile (·.role ≠ .parameterMarker)

/-- The last literal of a segment. -/
def lastLiteral? (segment : List Token) : Option String :=
  ((segment.filter (·.role = .literalCandidate)).getLast?).map Token.text

/-- The default that a segment gives: the last literal after its first sign `=`. -/
def defaultIn (segment : List Token) : String :=
  (lastLiteral? (segment.dropWhile fun t => !t.isAssignment)).getD ""

/-- The parameter that the first of some tokens declares. -/
def declaredByFirst? (id : ObjectId) : List Token → Option Parameter
  | [] => none
  | t :: tokens =>
    if t.role = .parameterMarker ∧ t.text ≠ "" then some ⟨id, t.text, defaultIn (segmentOf tokens)⟩
    else none

/-- The parameters that a list declares, marker by marker. -/
def declaredBy (id : ObjectId) (list : List Token) : List Parameter :=
  list.tails.filterMap (declaredByFirst? id)

/-! ## Lemmas -/

theorem role_of_isAssignment {t : Token} (h : t.isAssignment = true) : t.role = .other := by
  have hk : t.kind = .equals := by simpa [Token.isAssignment] using h
  simp [Token.role, Token.isReturns, hk, Kind.role]

theorem declaredBy_nil (id : ObjectId) : declaredBy id [] = [] := rfl

theorem declaredBy_cons (id : ObjectId) (t : Token) (tokens : List Token) :
    declaredBy id (t :: tokens) =
      (if t.role = .parameterMarker then
        (Declaration.close ⟨t.text, false, defaultIn (segmentOf tokens)⟩ id) else []) ++
      declaredBy id tokens := by
  unfold declaredBy
  rw [List.tails, List.filterMap_cons, declaredByFirst?]
  by_cases hm : t.role = .parameterMarker
  · by_cases ht : t.text = ""
    · simp [hm, ht, Declaration.close]
    · simp [hm, ht, Declaration.close]
  · simp [hm]

theorem listOf_cons (t : Token) (tokens : List Token) :
    listOf (t :: tokens) = if t.role = .terminator then [] else t :: listOf tokens := by
  unfold listOf
  rw [List.takeWhile_cons]
  by_cases h : t.role = .terminator <;> simp [h]

theorem segmentOf_cons (t : Token) (tokens : List Token) :
    segmentOf (t :: tokens) = if t.role = .parameterMarker then [] else t :: segmentOf tokens := by
  unfold segmentOf
  rw [List.takeWhile_cons]
  by_cases h : t.role = .parameterMarker <;> simp [h]

theorem lastLiteral?_cons (t : Token) (segment : List Token) :
    lastLiteral? (t :: segment) = (lastLiteral? segment).or
      (if t.role = .literalCandidate then some t.text else none) := by
  unfold lastLiteral?
  by_cases h : t.role = .literalCandidate
  · rw [List.filter_cons_of_pos (by simpa using h), List.getLast?_cons, if_pos h]
    cases (segment.filter (·.role = .literalCandidate)).getLast? <;> rfl
  · rw [List.filter_cons_of_neg (by simpa using h), if_neg h, Option.or_none]

namespace Declaration

/-- An open declaration after one more token that is no marker. -/
def read (d : Declaration) (t : Token) : Declaration :=
  match t.role with
  | .literalCandidate => d.offer t.text
  | .other => if t.isAssignment then d.awaitDefault else d
  | _ => d

theorem close_reverse (d : Declaration) (id : ObjectId) : (d.close id).reverse = d.close id := by
  unfold close
  split <;> rfl

/-- Once a default is awaited, the last literal is the default. -/
theorem foldl_read_of_awaiting (segment : List Token) (name default : String) :
    segment.foldl read ⟨name, true, default⟩ =
      ⟨name, true, (lastLiteral? segment).getD default⟩ := by
  induction segment generalizing default with
  | nil => rfl
  | cons t segment ih =>
    have hread : read ⟨name, true, default⟩ t = ⟨name, true,
        (if t.role = .literalCandidate then some t.text else Option.none).getD default⟩ := by
      unfold read
      cases ht : t.role <;> simp [offer, awaitDefault]
    rw [List.foldl_cons, hread, ih, lastLiteral?_cons]
    cases lastLiteral? segment <;> rfl

/-- Before the first sign `=` nothing happens to a declaration that awaits no default. -/
theorem foldl_read_of_not_awaiting (segment : List Token) (name : String) :
    segment.foldl read ⟨name, false, ""⟩ =
      ⟨name, segment.any Token.isAssignment, defaultIn segment⟩ := by
  induction segment with
  | nil => rfl
  | cons t segment ih =>
    rw [List.foldl_cons]
    cases ha : t.isAssignment with
    | true =>
      have hrole := role_of_isAssignment ha
      have hlast : lastLiteral? (t :: segment) = lastLiteral? segment := by
        simp [lastLiteral?_cons, hrole]
      simp only [read, hrole, ha, if_true, awaitDefault, foldl_read_of_awaiting, defaultIn,
        List.any_cons, Bool.true_or, List.dropWhile_cons, Bool.not_true, Bool.false_eq_true,
        if_false, hlast]
    | false =>
      have hread : read ⟨name, false, ""⟩ t = ⟨name, false, ""⟩ := by
        unfold read
        cases t.role <;> simp [offer, ha]
      rw [hread, ih]
      simp [defaultIn, ha]

/-- What a marker opens becomes the parameter with the default that its segment gives. -/
theorem close_foldl_read_opened (segment : List Token) (name : String) (id : ObjectId) :
    (segment.foldl read (opened name)).close id = close ⟨name, false, defaultIn segment⟩ id := by
  unfold opened
  rw [foldl_read_of_not_awaiting]
  rfl

/-- A declaration keeps its name, so where there is none there never is a parameter. -/
theorem close_foldl_read_none (segment : List Token) (id : ObjectId) :
    (segment.foldl read none).close id = [] := by
  unfold none
  rw [foldl_read_of_not_awaiting]
  rfl

end Declaration

/-- **The pass, from any point on.** The open declaration is completed by the tokens up to the next
marker, and what follows declares what the rule says. -/
theorem scanFrom_eq (id : ObjectId) (d : Declaration) (done : List Parameter) (index : Nat)
    (tokens : List Token) :
    scanFrom id d done index tokens =
      ⟨done.reverse ++ ((segmentOf (listOf tokens)).foldl Declaration.read d).close id ++
          declaredBy id (listOf tokens),
        match tokens.find? (·.role = .terminator) with
        | some t => .terminator (index + (listOf tokens).length) t.text
        | none => .endOfTokens⟩ := by
  induction tokens generalizing d done index with
  | nil =>
    simp [scanFrom, listOf, segmentOf, declaredBy_nil, Declaration.close_reverse]
  | cons t tokens ih =>
    rw [scanFrom, listOf_cons, List.find?_cons]
    -- what a token that goes on does to the open declaration
    have hnext : ∀ index : Nat, index + 1 + (listOf tokens).length =
        index + (t :: listOf tokens).length := by
      intro index; rw [List.length_cons]; omega
    cases ht : t.role with
    | terminator => simp [segmentOf, declaredBy_nil, Declaration.close_reverse]
    | ignorable => simp [ih, hnext, segmentOf_cons, declaredBy_cons, ht, Declaration.read]
    | literalCandidate =>
      simp [ih, hnext, segmentOf_cons, declaredBy_cons, ht, Declaration.read]
    | other => simp [ih, hnext, segmentOf_cons, declaredBy_cons, ht, Declaration.read]
    | parameterMarker =>
      simp [ih, hnext, segmentOf_cons, declaredBy_cons, ht, Declaration.close_reverse,
        Declaration.close_foldl_read_opened]

theorem parameters_scanTokens (id : ObjectId) (tokens : List Token) :
    (scanTokens id tokens).parameters = declaredBy id (listOf tokens) := by
  unfold scanTokens
  rw [scanFrom_eq, Declaration.close_foldl_read_none]
  rfl

theorem stop_scanTokens (id : ObjectId) (tokens : List Token) :
    (scanTokens id tokens).stop = stopOf tokens := by
  unfold scanTokens stopOf
  rw [scanFrom_eq]
  simp only [Nat.zero_add]

/-! ## Top theorem (proved from the lemmas above) -/

/-- **The pass follows the rule.** -/
theorem scanTokens_eq (id : ObjectId) (tokens : List Token) :
    scanTokens id tokens = ⟨declaredBy id (listOf tokens), stopOf tokens⟩ := by
  rw [← parameters_scanTokens, ← stop_scanTokens]

end RoutineParams
