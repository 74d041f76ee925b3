import RoutineParams.Proofs.TomlNumbers
import RoutineParams.Proofs.TomlStrings

/-!
# TOML entries read from their texts

Strings are read one after the other from an array, each from a line of its own, and entries from a
document: each key once, with its value up to the end of the line.

    readValue depth (writeStrings items ++ rest) = some (items, rest)  (readValue_writeStrings)
    a document of readable entries with different keys is read as them              (parse?_written)
-/

namespace RoutineParams.Toml

/-! ## Definitions -/

/-- An entry of a document, with its value and the text that is written for it. -/
structure Entry where
  key : String
  text : List Char
  value : Value

namespace Entry

/-- An entry that can be read again: its key needs no quotes. -/
def IsReadable (e : Entry) : Prop :=
  e.key.toList ≠ [] ∧ (∀ c ∈ e.key.toList, isBare c = true) ∧ IsTextOf e.text e.value

/-- An entry as it is written. -/
def written (e : Entry) : List Char := writeEntry e.key e.text

/-- What an entry sets. -/
def pair (e : Entry) : String × Value := (e.key, e.value)

end Entry

/-! ## Lemmas: strings and arrays of strings -/

theorem exists_writeString (text : String) :
    ∃ q s, writeString text = q :: s ∧ (q = '"' ∨ q = '\'') := by
  rw [writeString]
  cases stringForm text.toList with
  | basic | longBasic => exact ⟨'"', _, rfl, Or.inl rfl⟩
  | literal | longLiteral => exact ⟨'\'', _, rfl, Or.inr rfl⟩

theorem readValue_writeString (depth : Nat) (text : String) {rest : List Char}
    (hrest : EndsString rest) :
    readValue depth (writeString text ++ rest) = some (.string text, rest) := by
  have hread := readString?_writeString text hrest
  obtain ⟨q, s, hs, hq⟩ := exists_writeString text
  rw [hs, List.cons_append] at hread ⊢
  unfold readValue
  rcases hq with rfl | rfl <;> simp [hread]

theorem length_le_flatMap {α β : Type} {as : List α} {f : α → List β}
    (h : ∀ a ∈ as, f a ≠ []) : as.length ≤ (as.flatMap f).length := by
  induction as with
  | nil => exact Nat.le_refl 0
  | cons a as ih =>
    obtain ⟨ha, has⟩ := List.forall_mem_cons.1 h
    have hpos := List.length_pos_iff.2 ha
    have hle := ih has
    rw [List.flatMap_cons, List.length_append, List.length_cons]
    omega

theorem skipSpace_cons {c : Char} (h : isSpace c = false) (s : List Char) :
    skipSpace (c :: s) = c :: s := by
  simp [skipSpace, h]

theorem skipLines?_stop {c : Char} (h : isSpace c = false) (hcomment : c ≠ '#')
    (hline : c ≠ '\n') (hreturn : c ≠ '\r') (fuel : Nat) (s : List Char) :
    skipLines? fuel (c :: s) = some (c :: s) := by
  rw [skipLines?.eq_def, skipSpace_cons h]
  cases fuel with
  | zero => rfl
  | succ fuel => simp [hcomment, hline, hreturn]

/-- A line end and the blanks of the next line are passed over. -/
theorem skipLines?_newline {gap : List Char} (hgap : ∀ c ∈ gap, isSpace c = true) {c : Char}
    (h : isSpace c = false) (hcomment : c ≠ '#') (hline : c ≠ '\n') (hreturn : c ≠ '\r')
    (fuel : Nat) (s : List Char) :
    skipLines? (fuel + 1) ('\n' :: (gap ++ c :: s)) = some (c :: s) := by
  have hskip : skipSpace (gap ++ c :: s) = skipSpace (c :: s) :=
    List.dropWhile_append_of_pos hgap
  have hread : skipLines? fuel (gap ++ c :: s) = skipLines? fuel (c :: s) := by
    rw [skipLines?.eq_def, hskip, ← skipLines?.eq_def]
  rw [skipLines?.eq_def, skipSpace_cons (by decide)]
  exact hread.trans (skipLines?_stop h hcomment hline hreturn fuel s)

theorem endsString_cons {c : Char} (h : c ≠ '"' ∧ c ≠ '\'') (s : List Char) :
    EndsString (c :: s) := by
  intro d hd
  obtain rfl := Option.some.inj hd
  exact h

section
variable {read : List Char → Option (Value × List Char)} {done : List Value}
  {s t u : List Char} {v : Value}

theorem readItems_close (h : skipLines? s.length s = some (']' :: t)) (fuel : Nat) :
    readItems read (fuel + 1) done s = some (.array done.reverse, t) := by
  rw [readItems, h]
  rfl

theorem readItems_comma {c : Char} (hc : c ≠ ']') (h : skipLines? s.length s = some (c :: t))
    (hread : read (c :: t) = some (v, u)) {w : List Char}
    (hcomma : skipLines? u.length u = some (',' :: w)) (fuel : Nat) :
    readItems read (fuel + 1) done s = readItems read fuel (v :: done) w := by
  rw [readItems, h]
  simp [hc, hread, hcomma]

theorem readItems_last {c : Char} (hc : c ≠ ']') (h : skipLines? s.length s = some (c :: t))
    (hread : read (c :: t) = some (v, u)) {w : List Char}
    (hclose : skipLines? u.length u = some (']' :: w)) (fuel : Nat) :
    readItems read (fuel + 1) done s = some (.array (v :: done).reverse, w) := by
  rw [readItems, h]
  simp [hc, hread, hclose]

end

section
variable (depth : Nat)

/-- **Strings are read one after the other**, each from a line of its own. -/
theorem readItems_lines (items : List String) (done : List Value) {fuel : Nat}
    (hfuel : items.length < fuel) (rest : List Char) :
    readItems (readValue depth) fuel done ('\n' :: ((items.flatMap fun a =>
        List.replicate 4 ' ' ++ writeString a ++ [',', '\n']) ++ ']' :: rest)) =
      some (.array (done.reverse ++ items.map .string), rest) := by
  induction items generalizing done fuel with
  | nil =>
    obtain ⟨fuel, rfl⟩ : ∃ n, fuel = n + 1 := ⟨fuel - 1, by omega⟩
    rw [List.map_nil, List.append_nil]
    have hnone : ∀ d ∈ ([] : List Char), isSpace d = true := by simp
    exact readItems_close (skipLines?_newline hnone (by decide) (by decide) (by decide)
      (by decide) _ rest) fuel
  | cons a items ih =>
    obtain ⟨fuel, rfl⟩ : ∃ n, fuel = n + 1 := ⟨fuel - 1, by omega⟩
    obtain ⟨q, s, hs, hq⟩ := exists_writeString a
    have hnext := ih (.string a :: done) (Nat.lt_of_succ_lt_succ hfuel)
    generalize hlines : (items.flatMap fun a =>
      List.replicate 4 ' ' ++ writeString a ++ [',', '\n']) ++ ']' :: rest = lines at hnext
    have htext : ((a :: items).flatMap fun a =>
        List.replicate 4 ' ' ++ writeString a ++ [',', '\n']) ++ ']' :: rest =
          List.replicate 4 ' ' ++ q :: (s ++ ',' :: '\n' :: lines) := by
      simp [← hlines, hs]
    have hskip : ∀ fuel, skipLines? (fuel + 1)
        ('\n' :: (List.replicate 4 ' ' ++ q :: (s ++ ',' :: '\n' :: lines))) =
          some (q :: (s ++ ',' :: '\n' :: lines)) := by
      intro fuel
      rcases hq with rfl | rfl <;>
        exact skipLines?_newline (List.all_eq_true.1 rfl) (by decide) (by decide) (by decide)
          (by decide) _ _
    have hclose : q ≠ ']' := by rcases hq with rfl | rfl <;> decide
    have hread := readValue_writeString depth a
      (endsString_cons (c := ',') (by decide) ('\n' :: lines))
    rw [hs, List.cons_append] at hread
    have hstep : readItems (readValue depth) (fuel + 1) done
        ('\n' :: (List.replicate 4 ' ' ++ q :: (s ++ ',' :: '\n' :: lines))) =
          readItems (readValue depth) fuel (.string a :: done) ('\n' :: lines) :=
      readItems_comma hclose (hskip _) hread
        (skipLines?_stop (by decide) (by decide) (by decide) (by decide) _ _) fuel
    rw [htext, hstep, hnext]
    simp

/-- **An array of strings is read as it was written.** -/
theorem readValue_writeStrings (items : List String) (rest : List Char) :
    readValue (depth + 1) (writeStrings items ++ rest) =
      some (.array (items.map .string), rest) := by
  have hopen : ∀ s, readValue (depth + 1) ('[' :: s) =
      readItems (readValue depth) (s.length + 1) [] s := fun s => by rw [readValue]
  rcases items with _ | ⟨a, _ | ⟨b, items⟩⟩
  · exact (hopen _).trans (readItems_close (skipLines?_stop (by decide) (by decide) (by decide)
      (by decide) _ rest) _)
  · obtain ⟨q, s, hs, hq⟩ := exists_writeString a
    have hclose : q ≠ ']' := by rcases hq with rfl | rfl <;> decide
    have hskip : ∀ fuel t, skipLines? fuel (q :: t) = some (q :: t) := by
      intro fuel t
      rcases hq with rfl | rfl <;>
        exact skipLines?_stop (by decide) (by decide) (by decide) (by decide) fuel t
    have hread := readValue_writeString depth a (endsString_cons (c := ']') (by decide) rest)
    rw [hs, List.cons_append] at hread
    have htext : writeStrings [a] ++ rest = '[' :: (q :: (s ++ ']' :: rest)) := by
      simp [writeStrings, hs]
    rw [htext, hopen, readItems_last hclose (hskip _ _) hread (skipLines?_stop (by decide)
      (by decide) (by decide) (by decide) _ _)]
    rfl
  · have htext : writeStrings (a :: b :: items) ++ rest = '[' :: '\n' ::
        (((a :: b :: items).flatMap fun a =>
          List.replicate 4 ' ' ++ writeString a ++ [',', '\n']) ++ ']' :: rest) := by
      simp [writeStrings]
    have hfuel : (a :: b :: items).length < ('\n' :: (((a :: b :: items).flatMap fun a =>
        List.replicate 4 ' ' ++ writeString a ++ [',', '\n']) ++ ']' :: rest)).length + 1 := by
      have hle : (a :: b :: items).length ≤ ((a :: b :: items).flatMap fun a =>
          List.replicate 4 ' ' ++ writeString a ++ [',', '\n']).length :=
        length_le_flatMap fun a _ => by simp
      simp only [List.length_cons, List.length_append] at hle ⊢
      omega
    rw [htext, hopen, readItems_lines depth _ _ hfuel]
    rfl

end

/-! ## Lemmas: entries -/

theorem isSpace_of_isBare {c : Char} (h : isBare c = true) : isSpace c = false := by
  cases hspace : isSpace c with
  | false => rfl
  | true =>
    simp only [isSpace, Bool.or_eq_true, beq_iff_eq] at hspace
    rcases hspace with rfl | rfl <;> cases h

theorem readKey?_written (fuel : Nat) {key : String} (hne : key.toList ≠ [])
    (hbare : ∀ c ∈ key.toList, isBare c = true) (s : List Char) :
    readKey? (fuel + 1) (key.toList ++ ' ' :: '=' :: s) = some (([], key), '=' :: s) := by
  have htake : (key.toList ++ ' ' :: '=' :: s).takeWhile isBare = key.toList := by
    rw [List.takeWhile_append_of_pos hbare, List.takeWhile_cons_of_neg (by decide),
      List.append_nil]
  have hdrop : (key.toList ++ ' ' :: '=' :: s).dropWhile isBare = ' ' :: '=' :: s := by
    rw [List.dropWhile_append_of_pos hbare, List.dropWhile_cons_of_neg (by decide)]
  obtain ⟨c, cs, hcs⟩ := List.exists_cons_of_ne_nil hne
  have hc := hbare c (hcs ▸ List.mem_cons_self)
  have hpart : readPart? (key.toList ++ ' ' :: '=' :: s) = some (key, ' ' :: '=' :: s) := by
    rw [readPart?.eq_3, htake, hdrop, hcs]
    · simp [← hcs, String.ofList_toList]
    · intro t ht
      rw [hcs] at ht
      exact ne_of_class hc (by decide) (List.cons.inj ht).1
    · intro t ht
      rw [hcs] at ht
      exact ne_of_class hc (by decide) (List.cons.inj ht).1
  have hskip : skipSpace (key.toList ++ ' ' :: '=' :: s) = key.toList ++ ' ' :: '=' :: s := by
    rw [hcs]
    exact skipSpace_cons (isSpace_of_isBare hc) _
  rw [readKey?, hskip, hpart]
  rfl

/-- **A line is read as the entry that it was written for.** -/
theorem readLine?_written {e : Entry} (he : e.IsReadable) {t : Entries}
    (hnew : t.lookup e.key = none) (rest : List Char) :
    readLine? ⟨t, []⟩ (e.written ++ rest) = some (⟨t ++ [e.pair], []⟩, rest) := by
  obtain ⟨hne, hbare, ⟨c, text, htext, hc⟩, hread⟩ := he
  have hwritten : e.written ++ rest =
      e.key.toList ++ ' ' :: '=' :: ' ' :: (e.text ++ '\n' :: rest) := by
    simp [Entry.written, writeEntry]
  have hopen : ∀ s, e.key.toList ++ ' ' :: '=' :: ' ' :: (e.text ++ '\n' :: rest) ≠ '[' :: s := by
    intro s hs
    obtain ⟨d, ds, hds⟩ := List.exists_cons_of_ne_nil hne
    have hd := hbare d (hds ▸ List.mem_cons_self)
    rw [hds] at hs
    exact ne_of_class hd (by decide) (List.cons.inj hs).1
  have hskip : skipSpace (' ' :: (e.text ++ '\n' :: rest)) = e.text ++ '\n' :: rest := by
    rw [htext]
    exact skipSpace_cons hc _
  have hadd : Entries.addUnder [] [] e.key e.value t = some (t ++ [e.pair]) := by
    simp [Entries.addUnder, Entries.changeAt, Entries.addDotted, Entries.add, hnew, Entry.pair]
  rw [hwritten, readLine?.eq_3 _ _ (fun s => hopen _) hopen, maxDepth, readKey?_written _ hne hbare]
  simp only [Option.bind_eq_bind, Option.bind_some, after?, if_pos, hskip]
  rw [← maxDepth, hread]
  simp only [Option.bind_some, hadd]
  rfl

theorem lookup_eq_none {t : Entries} {k : String} (h : k ∉ t.map Prod.fst) :
    t.lookup k = none := by
  rw [List.lookup_eq_none_iff]
  intro p hp
  have hne : k ≠ p.1 := by
    rintro rfl
    exact h (List.mem_map_of_mem hp)
  simpa using hne

theorem Entry.IsReadable.exists_written {e : Entry} (he : e.IsReadable) (rest : List Char) :
    ∃ c s, e.written ++ rest = c :: s ∧ isBare c = true := by
  obtain ⟨c, cs, hcs⟩ := List.exists_cons_of_ne_nil he.1
  have htext : e.written ++ rest = c :: (cs ++ ' ' :: '=' :: ' ' :: (e.text ++ '\n' :: rest)) := by
    simp [Entry.written, writeEntry, hcs]
  exact ⟨c, _, htext, he.2.1 c (hcs ▸ List.mem_cons_self)⟩

/-- There is no empty line before an entry. -/
theorem skipBlankLines_written {e : Entry} (he : e.IsReadable) (rest : List Char) :
    readLines?.skipBlankLines (e.written ++ rest) = some (e.written ++ rest) := by
  obtain ⟨c, s, hs, hc⟩ := he.exists_written rest
  have hcomment : c ≠ '#' := ne_of_class hc (by decide)
  have hline : c ≠ '\n' := ne_of_class hc (by decide)
  have hreturn : c ≠ '\r' := ne_of_class hc (by decide)
  rw [hs, readLines?.skipBlankLines, List.length_cons, readLines?.go.eq_def,
    skipSpace_cons (isSpace_of_isBare hc)]
  simp [hcomment, hline, hreturn]

theorem readLines?_written {es : List Entry} (hes : ∀ e ∈ es, e.IsReadable) {t : Entries}
    (hnodup : (t.map Prod.fst ++ es.map Entry.key).Nodup) {fuel : Nat} (hfuel : es.length < fuel) :
    readLines? fuel ⟨t, []⟩ (es.flatMap Entry.written) = some (t ++ es.map Entry.pair) := by
  induction es generalizing t fuel with
  | nil =>
    obtain ⟨fuel, rfl⟩ : ∃ n, fuel = n + 1 := ⟨fuel - 1, by simp at hfuel; omega⟩
    rw [List.map_nil, List.append_nil]
    rfl
  | cons e es ih =>
    obtain ⟨fuel, rfl⟩ : ∃ n, fuel = n + 1 := ⟨fuel - 1, by omega⟩
    obtain ⟨he, hes⟩ := List.forall_mem_cons.1 hes
    have hnew : t.lookup e.key = none := by
      refine lookup_eq_none fun hmem => ?_
      exact (List.nodup_append.1 hnodup).2.2 _ hmem _ List.mem_cons_self rfl
    have hnext := ih hes (t := t ++ [e.pair]) (by simpa [Entry.pair] using hnodup)
      (Nat.lt_of_succ_lt_succ hfuel)
    have hline := readLine?_written he hnew (es.flatMap Entry.written)
    obtain ⟨c, s, hs, hc⟩ := he.exists_written (es.flatMap Entry.written)
    rw [List.flatMap_cons, readLines?, skipBlankLines_written he]
    rw [hs] at hline ⊢
    simp [hline, hnext]

/-- **A document is read as it was written**, if its keys differ. -/
theorem parse?_written {es : List Entry} (hes : ∀ e ∈ es, e.IsReadable)
    (hnodup : (es.map Entry.key).Nodup) :
    parse? (String.ofList (es.flatMap Entry.written)) = some (es.map Entry.pair) := by
  have hread : readLines? ((es.flatMap Entry.written).length + 1) ⟨[], []⟩
      (es.flatMap Entry.written) = some (es.map Entry.pair) := by
    refine readLines?_written (t := []) hes (by simpa using hnodup) (Nat.lt_succ_of_le ?_)
    exact length_le_flatMap fun e _ => by simp [Entry.written, writeEntry]
  have hmark : ∀ s, es.flatMap Entry.written ≠ '\ufeff' :: s := by
    intro s hs
    cases es with
    | nil => cases hs
    | cons e es =>
      obtain ⟨c, t, ht, hc⟩ := (hes e List.mem_cons_self).exists_written
        (es.flatMap Entry.written)
      rw [List.flatMap_cons, ht] at hs
      exact ne_of_class hc (by decide) (List.cons.inj hs).1
  rw [parse?, String.toList_ofList]
  split
  · exact absurd ‹_› (hmark _)
  · exact hread

end RoutineParams.Toml
