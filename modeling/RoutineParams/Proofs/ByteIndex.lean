import RoutineParams.Proofs.ByteOrder
import RoutineParams.Proofs.Places

/-!
# Places in bytes

The index of a text may as well count bytes: it notes where the lines start among the bytes, and
leads a line and a column to a number of bytes, by a slice of the text from the start of the line.
Such a slice is taken between characters alone, so no slice fails, and the bytes counted are those of
the characters that the index by characters counts.

    (ByteIndex.ofText s).offset p = .ok (the bytes of the characters before p)            (offset_eq)
    (ByteIndex.ofText s).slice p q = .ok ((TextIndex.ofText s).between? p q)               (slice_eq)
-/

namespace RoutineParams

/-! ## Definitions -/

/-- The bytes of characters. -/
def utf8Bytes (s : List Char) : List UInt8 := s.flatMap String.utf8EncodeChar

/-- How many bytes characters have. -/
def byteSize (s : List Char) : Nat := (utf8Bytes s).length

/-- A text before and after a number of bytes. There is none after a part of a character, and none
beyond the text. -/
def splitBytes? : List Char → Nat → Option (List Char × List Char)
  | s, 0 => some ([], s)
  | [], _ + 1 => none
  | c :: s, n + 1 =>
    if c.utf8Size ≤ n + 1 then
      (splitBytes? s (n + 1 - c.utf8Size)).map fun p => (c :: p.1, p.2)
    else none

/-- The slice of a text between two numbers of bytes. -/
def sliceBytes? (s : List Char) (i j : Nat) : Option (List Char) :=
  (splitBytes? s i).bind fun p => (splitBytes? p.2 (j - i)).map Prod.fst

/-- The characters of a text, each with the bytes before it. -/
def charIndices (n : Nat) : List Char → List (Nat × Char)
  | [] => []
  | c :: s => (n, c) :: charIndices (n + c.utf8Size) s

/-- How many bytes come before each line of a text. -/
def byteStarts (bytes : List UInt8) : Array Nat :=
  (bytes.foldl (fun (n, starts) b => (n + 1, if b = 10 then starts.push (n + 1) else starts))
    (0, #[0])).2

/-- A slice that does not start between characters. -/
structure SliceFault where
  start : Nat
deriving DecidableEq, Repr

/-- A text in which places are found by their bytes. -/
structure ByteIndex where
  text : List Char
  starts : Array Nat

namespace ByteIndex

/-- The index of a text. -/
def ofText (source : String) : ByteIndex := ⟨source.toList, byteStarts (bytesOf source)⟩

/-- How many bytes of the text come before a position. There is none before a line that the text
does not have; a column past the end stands for the end. It fails where the line would start within
a character. -/
def offset (index : ByteIndex) (p : Position) : Except SliceFault (Option Nat) :=
  match p.line with
  | 0 => .ok none
  | n + 1 =>
    match index.starts[n]? with
    | none => .ok none
    | some start =>
      match splitBytes? index.text start with
      | none => .error ⟨start⟩
      | some (_, rest) =>
        match (charIndices 0 rest)[p.column - 1]? with
        | some (i, _) => .ok (some (start + i))
        | none => .ok (some (byteSize index.text))

/-- The characters from a position up to another, if there are any. -/
def slice (index : ByteIndex) (p q : Position) : Except SliceFault (Option (List Char)) := do
  match ← index.offset p, ← index.offset q with
  | some i, some j => return if i < j then sliceBytes? index.text i j else none
  | _, _ => return none

end ByteIndex

/-! ## Lemmas: bytes -/

theorem utf8Bytes_append (a b : List Char) : utf8Bytes (a ++ b) = utf8Bytes a ++ utf8Bytes b :=
  List.flatMap_append

theorem byteSize_append (a b : List Char) : byteSize (a ++ b) = byteSize a + byteSize b := by
  rw [byteSize, utf8Bytes_append, List.length_append, byteSize, byteSize]

theorem byteSize_cons (c : Char) (s : List Char) : byteSize (c :: s) = c.utf8Size + byteSize s := by
  rw [byteSize, utf8Bytes, List.flatMap_cons, List.length_append, String.length_utf8EncodeChar]
  rfl

theorem byteSize_pos {s : List Char} (h : s ≠ []) : 0 < byteSize s := by
  obtain ⟨c, s, rfl⟩ := List.exists_cons_of_ne_nil h
  have := c.utf8Size_pos
  rw [byteSize_cons]
  omega

theorem utf8EncodeChar_newline : String.utf8EncodeChar '\n' = [10] := by decide

/-- No other character has the byte of a newline. -/
theorem not_mem_utf8EncodeChar {c : Char} (h : c ≠ '\n') :
    (10 : UInt8) ∉ String.utf8EncodeChar c := by
  have hval : c.val.toNat ≠ 10 := fun hn => h (Char.ext (UInt32.toNat_inj.1 hn))
  have hmax : c.val.toNat < 0x110000 := by
    have hvalid := c.valid
    simp only [UInt32.isValidChar, Nat.isValidChar] at hvalid
    omega
  have hne : ∀ {n : Nat}, n < 256 → n ≠ 10 → (10 : UInt8) ≠ UInt8.ofNat n := by
    intro n hn hten heq
    have htoNat := congrArg UInt8.toNat heq
    rw [UInt8.toNat_ofNat', Nat.mod_eq_of_lt hn] at htoNat
    exact hten htoNat.symm
  unfold String.utf8EncodeChar
  generalize c.val.toNat = m at hval hmax
  extract_lets
  repeat' split
  all_goals simp only [List.mem_cons, List.not_mem_nil, or_false, not_or]
  · exact hne (by omega) hval
  · exact ⟨hne (by omega) (by omega), hne (by omega) (by omega)⟩
  · exact ⟨hne (by omega) (by omega), hne (by omega) (by omega), hne (by omega) (by omega)⟩
  · exact ⟨hne (by omega) (by omega), hne (by omega) (by omega), hne (by omega) (by omega),
      hne (by omega) (by omega)⟩

/-! ## Lemmas: slices -/

/-- After the bytes of its first characters a text is split. -/
theorem splitBytes?_byteSize (a b : List Char) : splitBytes? (a ++ b) (byteSize a) = some (a, b) := by
  induction a with
  | nil => cases b <;> rfl
  | cons c a ih =>
    obtain ⟨n, hn⟩ := Nat.exists_eq_add_of_lt (byteSize_pos (List.cons_ne_nil c a))
    have hsize : byteSize (c :: a) = n + 1 := by omega
    have hsum := byteSize_cons c a
    rw [List.cons_append, hsize, splitBytes?, if_pos (by omega),
      show n + 1 - c.utf8Size = byteSize a by omega, ih]
    rfl

theorem sliceBytes?_byteSize (a b c : List Char) :
    sliceBytes? (a ++ (b ++ c)) (byteSize a) (byteSize (a ++ b)) = some b := by
  have hrest : byteSize (a ++ b) - byteSize a = byteSize b := by
    rw [byteSize_append]
    omega
  rw [sliceBytes?, splitBytes?_byteSize, Option.bind_some, hrest, splitBytes?_byteSize]
  rfl

theorem getElem?_charIndices (n k : Nat) (s : List Char) :
    (charIndices n s)[k]? = s[k]?.map fun c => (n + byteSize (s.take k), c) := by
  induction s generalizing n k with
  | nil => rfl
  | cons c s ih =>
    cases k with
    | zero => rfl
    | succ k =>
      rw [charIndices, List.getElem?_cons_succ, List.getElem?_cons_succ, ih, List.take_succ_cons,
        byteSize_cons, Nat.add_assoc]

/-! ## Lemmas: starts of lines -/

theorem byteStarts_counter (x : List UInt8) (n : Nat) (starts : Array Nat) :
    (x.foldl (fun (n, starts) b => (n + 1, if b = 10 then starts.push (n + 1) else starts))
      (n, starts)).1 = n + x.length := by
  induction x generalizing n starts with
  | nil => rfl
  | cons b x ih =>
    rw [List.foldl_cons, ih, List.length_cons]
    omega

theorem byteStarts_append_singleton (x : List UInt8) (b : UInt8) :
    byteStarts (x ++ [b]) =
      if b = 10 then (byteStarts x).push (x.length + 1) else byteStarts x := by
  have h := byteStarts_counter x 0 #[0]
  unfold byteStarts
  rw [List.foldl_append, List.foldl_cons, List.foldl_nil]
  simp only [h, Nat.zero_add]

/-- Bytes that are no newlines start no line. -/
theorem byteStarts_append {x y : List UInt8} (hy : (10 : UInt8) ∉ y) :
    byteStarts (x ++ y) = byteStarts x := by
  induction y using List.reverseRecOn with
  | nil => rw [List.append_nil]
  | append_singleton y b ih =>
    rw [List.mem_append, not_or, List.mem_singleton] at hy
    rw [← List.append_assoc, byteStarts_append_singleton, if_neg (Ne.symm hy.2), ih hy.1]

theorem lineStarts_le (s : List Char) : ∀ n ∈ lineStarts s, n ≤ s.length := by
  induction s using List.reverseRecOn with
  | nil => simp [lineStarts]
  | append_singleton s c ih =>
    intro n hn
    rw [lineStarts_append_singleton] at hn
    rw [List.length_append, List.length_singleton]
    split at hn
    · rcases Array.mem_push.1 hn with hn | rfl
      · exact Nat.le_succ_of_le (ih n hn)
      · exact Nat.le_refl _
    · exact Nat.le_succ_of_le (ih n hn)

/-- The bytes before each line are those of the characters before it. -/
theorem byteStarts_eq (s : List Char) :
    byteStarts (utf8Bytes s) = (lineStarts s).map fun n => byteSize (s.take n) := by
  induction s using List.reverseRecOn with
  | nil => simp [byteStarts, utf8Bytes, lineStarts, byteSize]
  | append_singleton s c ih =>
    have hbefore : (lineStarts s).map (fun n => byteSize ((s ++ [c]).take n)) =
        (lineStarts s).map fun n => byteSize (s.take n) :=
      Array.map_congr_left fun n hn => by rw [List.take_append_of_le_length (lineStarts_le s n hn)]
    have hlast : utf8Bytes [c] = String.utf8EncodeChar c := List.append_nil _
    rw [utf8Bytes_append, hlast, lineStarts_append_singleton]
    by_cases hc : c = '\n'
    · subst hc
      rw [utf8EncodeChar_newline, byteStarts_append_singleton, if_pos rfl, if_pos rfl, ih,
        Array.map_push, hbefore, List.take_of_length_le (by simp), byteSize_append]
      rfl
    · rw [byteStarts_append (not_mem_utf8EncodeChar hc), if_neg hc, ih, hbefore]

/-! ## Lemmas: places -/

/-- The bytes of more characters are more. -/
theorem byteSize_take_lt {s : List Char} {i j : Nat} (hij : i < j) (hj : j ≤ s.length) :
    byteSize (s.take i) < byteSize (s.take j) := by
  obtain ⟨k, rfl⟩ := Nat.exists_eq_add_of_lt hij
  have hpos : 0 < byteSize ((s.drop i).take (k + 1)) := by
    refine byteSize_pos fun hnil => ?_
    have hlength := congrArg List.length hnil
    simp only [List.length_take, List.length_drop, List.length_nil] at hlength
    omega
  rw [Nat.add_assoc, List.take_add, byteSize_append]
  omega

theorem offset?_le {s : List Char} {p : Position} {n : Nat}
    (h : (TextIndex.ofText s).offset? p = some n) : n ≤ s.length := by
  unfold TextIndex.offset? at h
  split at h
  · cases h
  · obtain ⟨before, -, rfl⟩ := Option.map_eq_some_iff.1 h
    exact Nat.min_le_right _ _

namespace ByteIndex

/-- **The offset of a position** is that of the characters before it, in bytes. -/
theorem offset_eq (source : String) (p : Position) :
    (ofText source).offset p =
      .ok (((TextIndex.ofText source.toList).offset? p).map
        fun n => byteSize (source.toList.take n)) := by
  rw [show ofText source = ⟨source.toList, byteStarts (utf8Bytes source.toList)⟩ by
    rw [ofText, bytesOf_eq, utf8Bytes]]
  generalize source.toList = s
  unfold offset TextIndex.offset? TextIndex.ofText
  cases p.line with
  | zero => rfl
  | succ n =>
    simp only [byteStarts_eq, Array.getElem?_map]
    cases hstart : (lineStarts s)[n]? with
    | none => rfl
    | some before =>
      have hsplit := splitBytes?_byteSize (s.take before) (s.drop before)
      rw [List.take_append_drop] at hsplit
      simp only [Option.map_some, hsplit, getElem?_charIndices, List.getElem?_drop,
        List.size_toArray, Nat.zero_add]
      cases hchar : s[before + (p.column - 1)]? with
      | none =>
        have hlength := List.getElem?_eq_none_iff.1 hchar
        simp only [Option.map_none, Nat.min_eq_right hlength, List.take_length]
      | some c =>
        obtain ⟨hlength, -⟩ := List.getElem?_eq_some_iff.1 hchar
        simp only [Option.map_some, Nat.min_eq_left (Nat.le_of_lt hlength), ← byteSize_append,
          ← List.take_add]

/-- **The slice between two positions** is that of the characters between them. -/
theorem slice_eq (source : String) (p q : Position) :
    (ofText source).slice p q = .ok ((TextIndex.ofText source.toList).between? p q) := by
  unfold slice
  rw [offset_eq, offset_eq, TextIndex.between?, show (ofText source).text = source.toList from rfl]
  generalize source.toList = s
  cases hp : (TextIndex.ofText s).offset? p with
  | none => rfl
  | some i =>
    cases hq : (TextIndex.ofText s).offset? q with
    | none => rfl
    | some j =>
      have hi := offset?_le hp
      have hj := offset?_le hq
      change Except.ok (if byteSize (s.take i) < byteSize (s.take j) then
        sliceBytes? s (byteSize (s.take i)) (byteSize (s.take j)) else none) = _
      simp only
      by_cases hij : i < j
      · have hsplit : s = s.take i ++ ((s.drop i).take (j - i) ++ s.drop j) := by
          have hdrop : s.drop j = (s.drop i).drop (j - i) := by
            rw [List.drop_drop, Nat.add_sub_cancel' (Nat.le_of_lt hij)]
          rw [hdrop, List.take_append_drop, List.take_append_drop]
        have htake : s.take j = s.take i ++ (s.drop i).take (j - i) := by
          rw [← List.take_add, Nat.add_sub_cancel' (Nat.le_of_lt hij)]
        have hslice := sliceBytes?_byteSize (s.take i) ((s.drop i).take (j - i)) (s.drop j)
        rw [← hsplit, ← htake] at hslice
        rw [if_pos (byteSize_take_lt hij hj), if_pos hij, hslice]
        simp [TextIndex.ofText, List.extract_eq_take_drop]
      · have hle : byteSize (s.take j) ≤ byteSize (s.take i) := by
          rcases Nat.lt_or_eq_of_le (Nat.le_of_not_lt hij) with hlt | rfl
          · exact Nat.le_of_lt (byteSize_take_lt hlt hi)
          · exact Nat.le_refl _
        rw [if_neg (Nat.not_lt.2 hle), if_neg hij]

/-! ## Top theorem (proved from the lemmas above) -/

/-- **The index by bytes inverts the counting of positions** and never slices within a character. The
position reached by reading the start of a text leads to its bytes. Any line and column at all lead
to the bytes of a start of the text, or nowhere, and the slice between any two is that of the index
by characters. -/
theorem offset_inverts :
    (∀ a b : List Char,
        (ofText (String.ofList (a ++ b))).offset (Position.after a) = .ok (some (byteSize a))) ∧
      (∀ (source : String) (p : Position), (ofText source).offset p = .ok none ∨
        ∃ a b, source.toList = a ++ b ∧ byteSize a ≤ (bytesOf source).length ∧
          (ofText source).offset p = .ok (some (byteSize a))) ∧
      ∀ (source : String) (p q : Position),
        (ofText source).slice p q = .ok ((TextIndex.ofText source.toList).between? p q) := by
  refine ⟨fun a b => ?_, fun source p => ?_, slice_eq⟩
  · rw [offset_eq, String.toList_ofList, TextIndex.offset?_after, Option.map_some, List.take_left]
  · rw [offset_eq]
    cases (TextIndex.ofText source.toList).offset? p with
    | none => exact .inl rfl
    | some n =>
      refine .inr ⟨_, _, (List.take_append_drop n source.toList).symm, ?_, rfl⟩
      rw [bytesOf_eq]
      change byteSize _ ≤ byteSize source.toList
      conv_rhs => rw [← List.take_append_drop n source.toList, byteSize_append]
      exact Nat.le_add_right _ _

/-- Behind a letter of two bytes, and behind the end of a line. -/
example : (ofText "ab\nçd\ne").offset ⟨2, 2⟩ = .ok (some 5) := by decide +kernel

end ByteIndex

end RoutineParams
