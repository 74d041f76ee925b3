import RoutineParams.Proofs.HeaderOpenings
import RoutineParams.Proofs.WrittenNames

/-!
# The texts of headers

What a header is, as a grammar: an opening and a name. The header at the front of a text is the
longest text of the grammar there, and the header of a text is the first of them that starts where a
word may start.

    headerAt? s = some h ↔ s = m ++ r and m is the longest header there     (headerAt?_eq_some_iff)
    headerFrom? false s = some h ↔ s = a ++ (m ++ r) and m is the first header
                                                                          (headerFrom?_eq_some_iff)
-/

namespace RoutineParams

/-! ## What is written -/

/-- A text that is a header, and what it says. -/
inductive IsHeader : List Char → Header → Prop
  | mk {kind : RoutineKind} {o n : List Char} {parts : List (List Char)} :
      IsOpening kind o → Spells parts n →
        IsHeader (o ++ n) ⟨kind, String.ofList (tightenDots n)⟩

/-- In the text `m ++ r` the longest header at the front is `m`. -/
def LongestHeader (m r : List Char) (h : Header) : Prop :=
  IsHeader m h ∧ ∀ m' h', m' <+: m ++ r → IsHeader m' h' → m' <+: m

/-- Whether a word goes on behind the text `a`, which stands in a word if `inWord` holds. -/
def inWordAfter (inWord : Bool) (a : List Char) : Bool := a.foldl (fun _ c => isWordChar c) inWord

/-- Where a word may start behind `u`, no header is at the front of `s`. -/
def NoHeaderAt (inWord : Bool) (u s : List Char) : Prop :=
  inWordAfter inWord u = false → headerAt? s = none

/-- In the text `a ++ (m ++ r)` the first header is `m`. -/
structure FirstHeader (a m r : List Char) (h : Header) : Prop where
  apart : inWordAfter false a = false
  longest : LongestHeader m r h
  first : ∀ u v, a = u ++ v → v ≠ [] → NoHeaderAt false u (v ++ (m ++ r))

/-! ## Lemmas: headers -/

theorem headerAt?_eq (s : List Char) :
    headerAt? s = (afterOpening? s).bind fun p =>
      (name? p.2).map fun n => ⟨p.1, String.ofList (tightenDots n)⟩ := by
  simp only [headerAt?, afterOpening?, Option.bind_eq_bind, Option.bind_assoc, Option.map_eq_bind]
  rfl

theorem headerAt?_append {kind : RoutineKind} {o s : List Char} (ho : IsOpening kind o)
    (hs : ∀ c ∈ s.head?, isBlank c = false) :
    headerAt? (o ++ s) = (name? s).map fun n => ⟨kind, String.ofList (tightenDots n)⟩ := by
  rw [headerAt?_eq, afterOpening?_eq_some_iff.2 ⟨o, ho, rfl, hs⟩]
  rfl

/-- A header at the front of a text is read, with at least its characters. -/
theorem IsHeader.headerAt?_append {m : List Char} {h : Header} (hm : IsHeader m h)
    (r : List Char) : ∃ m' h', headerAt? (m ++ r) = some h' ∧ m' <+: m ++ r ∧ IsHeader m' h' ∧
      m <+: m' := by
  cases hm with
  | @mk kind o n parts ho hn =>
    obtain ⟨m, hm⟩ : ∃ m, name? (n ++ r) = some m := by
      rw [name?_eq, if_neg (hn.partLength_ne_zero r)]
      exact ⟨_, rfl⟩
    obtain ⟨hbefore, ⟨parts', hspells⟩, hlongest⟩ := name?_eq_some_iff.1 hm
    rw [List.append_assoc, RoutineParams.headerAt?_append ho (hn.isBlank_head? r), hm]
    exact ⟨o ++ m, _, rfl, (List.prefix_append_right_inj o).2 hbefore, .mk ho hspells,
      (List.prefix_append_right_inj o).2 (hlongest parts n ⟨r, rfl⟩ hn)⟩

theorem IsHeader.ne_nil {m : List Char} {h : Header} (hm : IsHeader m h) : m ≠ [] := by
  cases hm with
  | mk ho hn =>
    cases ho with
    | mk hv ha => simp [ha.1]

/-- An opening and the name that is read after it are the longest header at the front. -/
theorem longestHeader_of_name? {kind : RoutineKind} {o n r : List Char} (ho : IsOpening kind o)
    (hn : name? (n ++ r) = some n) :
    LongestHeader (o ++ n) r ⟨kind, String.ofList (tightenDots n)⟩ := by
  obtain ⟨-, ⟨parts, hspells⟩, hlongest⟩ := name?_eq_some_iff.1 hn
  refine ⟨.mk ho hspells, ?_⟩
  rintro _ _ ⟨r', hr'⟩ ⟨ho', hn'⟩
  -- the text has one opening
  rw [List.append_assoc, List.append_assoc] at hr'
  have hsame := afterOpening?_eq_some_iff.2 ⟨_, ho', rfl, hn'.isBlank_head? r'⟩
  rw [hr', afterOpening?_eq_some_iff.2 ⟨o, ho, rfl, hspells.isBlank_head? r⟩] at hsame
  obtain ⟨rfl, hrest⟩ := Prod.mk.inj (Option.some.inj hsame)
  rw [hrest] at hr'
  obtain rfl := List.append_cancel_right hr'
  exact (List.prefix_append_right_inj _).2 (hlongest _ _ ⟨r', hrest.symm⟩ hn')

/-- What is read at the front of a text is the longest header there. -/
theorem exists_longestHeader {s : List Char} {h : Header} (hs : headerAt? s = some h) :
    ∃ m r, s = m ++ r ∧ LongestHeader m r h := by
  rw [headerAt?_eq] at hs
  obtain ⟨⟨kind, t⟩, ht, hname⟩ := Option.bind_eq_some_iff.1 hs
  obtain ⟨n, hn, rfl⟩ := Option.map_eq_some_iff.1 hname
  obtain ⟨o, ho, rfl, -⟩ := afterOpening?_eq_some_iff.1 ht
  obtain ⟨⟨r, rfl⟩, -, -⟩ := name?_eq_some_iff.1 hn
  exact ⟨o ++ n, r, by rw [List.append_assoc], longestHeader_of_name? ho hn⟩

/-- A text is one header at most. -/
theorem IsHeader.headerAt?_eq {m : List Char} {h : Header} (hm : IsHeader m h) :
    headerAt? m = some h := by
  cases hm with
  | @mk kind o n parts ho hn =>
    have hname : name? n = some n := by
      refine name?_eq_some_iff.2 ⟨List.prefix_rfl, ⟨parts, hn⟩, fun _ _ h _ => h⟩
    have hblank := hn.isBlank_head? []
    rw [List.append_nil] at hblank
    rw [RoutineParams.headerAt?_append ho hblank, hname]
    rfl

/-- **The header at the front** of a text is the longest one there. -/
theorem headerAt?_eq_some_iff {s : List Char} {h : Header} :
    headerAt? s = some h ↔ ∃ m r, s = m ++ r ∧ LongestHeader m r h := by
  refine ⟨exists_longestHeader, ?_⟩
  rintro ⟨m, r, rfl, hm, hlongest⟩
  obtain ⟨m', h', hread, hbefore, hm', hle⟩ := hm.headerAt?_append r
  obtain rfl := hle.eq_of_length_le (hlongest m' h' hbefore hm').length_le
  rw [hread, ← hm.headerAt?_eq, ← hm'.headerAt?_eq]

theorem inWordAfter_append (inWord : Bool) (a b : List Char) :
    inWordAfter inWord (a ++ b) = inWordAfter (inWordAfter inWord a) b := List.foldl_append

theorem headerFrom?_eq_none_iff {inWord : Bool} {s : List Char} :
    headerFrom? inWord s = none ↔ ∀ u v, s = u ++ v → NoHeaderAt inWord u v := by
  induction s generalizing inWord with
  | nil =>
    refine iff_of_true rfl fun u v huv _ => ?_
    obtain ⟨-, rfl⟩ := List.append_eq_nil_iff.1 huv.symm
    rfl
  | cons c s ih =>
    rw [headerFrom?]
    constructor
    · intro h u v huv hu
      cases hhere : (if inWord then none else headerAt? (c :: s)) with
      | some h' => rw [hhere] at h; cases h
      | none =>
        rw [hhere] at h
        cases u with
        | nil =>
          obtain rfl : inWord = false := hu
          obtain rfl : c :: s = v := huv
          exact hhere
        | cons d u =>
          obtain ⟨rfl, rfl⟩ := List.cons.inj huv
          exact ih.1 h u v rfl hu
    · intro h
      have hhere : (if inWord then none else headerAt? (c :: s)) = none := by
        cases inWord with
        | true => rfl
        | false => exact h [] _ rfl rfl
      rw [hhere]
      exact ih.2 fun u v huv hu => h (c :: u) v (by rw [huv, List.cons_append]) hu

/-- The header found in a text, and where. -/
theorem headerFrom?_eq_some_iff_exists {inWord : Bool} {s : List Char} {h : Header} :
    headerFrom? inWord s = some h ↔ ∃ a t, s = a ++ t ∧ inWordAfter inWord a = false ∧
      headerAt? t = some h ∧ ∀ u v, a = u ++ v → v ≠ [] → NoHeaderAt inWord u (v ++ t) := by
  induction s generalizing inWord with
  | nil =>
    refine iff_of_false nofun ?_
    rintro ⟨a, t, hat, -, ht, -⟩
    obtain ⟨-, rfl⟩ := List.append_eq_nil_iff.1 hat.symm
    cases ht
  | cons c s ih =>
    rw [headerFrom?]
    cases hhere : (if inWord then none else headerAt? (c :: s)) with
    | some h' =>
      have hword : inWord = false := by
        cases inWord with
        | true => cases hhere
        | false => rfl
      subst hword
      have hat : headerAt? (c :: s) = some h' := hhere
      constructor
      · intro hsame
        refine ⟨[], c :: s, rfl, rfl, hat.trans hsame, fun u v huv hv => ?_⟩
        exact absurd (List.append_eq_nil_iff.1 huv.symm).2 hv
      · rintro ⟨a, t, hsplit, ha, ht, hfirst⟩
        cases a with
        | nil =>
          obtain rfl : c :: s = t := hsplit
          exact hat.symm.trans ht
        | cons d a =>
          have hnone := hfirst [] (d :: a) rfl (List.cons_ne_nil _ _) rfl
          rw [← hsplit, hat] at hnone
          cases hnone
    | none =>
      rw [ih]
      constructor
      · rintro ⟨a, t, rfl, ha, ht, hfirst⟩
        refine ⟨c :: a, t, rfl, ha, ht, fun u v huv hv hu => ?_⟩
        cases u with
        | nil =>
          obtain rfl : inWord = false := hu
          obtain rfl : c :: a = v := huv
          exact hhere
        | cons d u =>
          obtain ⟨rfl, rfl⟩ := List.cons.inj huv
          exact hfirst u v rfl hv hu
      · rintro ⟨a, t, hsplit, ha, ht, hfirst⟩
        cases a with
        | nil =>
          obtain rfl : inWord = false := ha
          obtain rfl : c :: s = t := hsplit
          rw [if_neg Bool.false_ne_true, ht] at hhere
          cases hhere
        | cons d a =>
          obtain ⟨rfl, rfl⟩ := List.cons.inj hsplit
          exact ⟨a, t, rfl, ha, ht, fun u v huv hv => hfirst (c :: u) v (by rw [huv]; rfl) hv⟩

/-! ## Top theorem (proved from the lemmas above) -/

/-- **The header of a text** is the first of the longest headers in it. -/
theorem headerFrom?_eq_some_iff {s : List Char} {h : Header} :
    headerFrom? false s = some h ↔ ∃ a m r, s = a ++ (m ++ r) ∧ FirstHeader a m r h := by
  rw [headerFrom?_eq_some_iff_exists]
  constructor
  · rintro ⟨a, t, rfl, ha, ht, hfirst⟩
    obtain ⟨m, r, rfl, hlongest⟩ := exists_longestHeader ht
    exact ⟨a, m, r, rfl, ha, hlongest, hfirst⟩
  · rintro ⟨a, m, r, rfl, ha, hlongest, hfirst⟩
    exact ⟨a, m ++ r, rfl, ha, headerAt?_eq_some_iff.2 ⟨m, r, rfl, hlongest⟩, hfirst⟩

end RoutineParams
