import Mathlib.Data.String.Basic
import RoutineParams.Proofs.Listings
import RoutineParams.Proofs.Outcomes

/-!
# Preparing files without pages

A file without pages is given both tables and their indexes when it is prepared. All that it lists
then lies on its first page, and the trees of its tables and indexes have no entries: so it holds a
store without rows. Where it cannot be written nothing is made.

    outcome (prepare (.ok ⟨⟩)) (fresh logged) =
      (.ok ⟨⟩, listing logged preparedKinds preparedRows)                          (prepare_fresh)
    storeOf? (listing logged preparedKinds preparedRows) = some .empty         (storeOf?_prepared)
-/

namespace RoutineParams.Storage

/-! ## Forms -/

/-- A table whose command names its columns, and those of its index among them. -/
structure TableSchema.IsPlain (s : TableSchema) : Prop where
  columns : s.form.columns.map Column.name = s.columns
  indexed : ∀ column ∈ s.indexed, column ∈ s.columns

namespace TableSchema

variable {s : TableSchema}

theorem toList_command (s : TableSchema) :
    s.command.toList =
      "CREATE TABLE ".toList ++ s.name.toList ++ " ".toList ++ s.definition.toList := by
  rw [command, String.toList_append, String.toList_append, String.toList_append]

set_option maxRecDepth 4000 in
theorem isPlain_routines : routines.IsPlain := by
  have hform : routines.form.columns.map Column.name = routines.columns := by
    -- the kernel reads the command from a list of its characters
    rw [form, TableForm.ofCommand, wordsOf, toList_command,
      show routines.definition.toList = _ from String.toList_ofList]
    decide +kernel
  exact ⟨hform, by decide⟩

set_option maxRecDepth 4000 in
theorem isPlain_parameters : parameters.IsPlain := by
  have hform : parameters.form.columns.map Column.name = parameters.columns := by
    rw [form, TableForm.ofCommand, wordsOf, toList_command,
      show parameters.definition.toList = _ from String.toList_ofList]
    decide +kernel
  exact ⟨hform, by decide⟩

theorem IsPlain.isSome_place? (h : s.IsPlain) {column : String} (hcolumn : column ∈ s.columns) :
    (s.form.place? column).isSome = true := by
  rw [← h.columns] at hcolumn
  obtain ⟨c, hc, rfl⟩ := List.mem_map.1 hcolumn
  rw [TableForm.place?, TableForm.placeIn?, List.findIdx?_isSome]
  exact List.any_eq_true.2 ⟨c, hc, beq_self_eq_true _⟩

end TableSchema

namespace Image

variable {logged : Bool} {kinds : List TreeKind} {rows : List (List Value)} {s : TableSchema}
  {root : Nat}

/-! ## Lemmas: steps of preparing -/

/-- Rows that list no view. -/
def LacksViews (rows : List (List Value)) : Prop :=
  ∀ l ∈ rows.filterMap listing?, l.kind ≠ "view"

instance (rows : List (List Value)) : Decidable (LacksViews rows) :=
  inferInstanceAs (Decidable (∀ l ∈ _, _))

theorem prepareTable_listing (hread : AreRead rows) (hfree : Unlisted s.name rows)
    (hroom : HasRoom (rows ++ [tableRow s (kinds.length + 2), keyRow s (kinds.length + 3)])) :
    outcome (prepareTable (.ok ⟨⟩) s) (listing logged kinds rows) =
      (.ok ⟨⟩, listing logged (kinds ++ [.table, .index])
        (rows ++ [tableRow s (kinds.length + 2), keyRow s (kinds.length + 3)])) := by
  simp [prepareTable, outcome_bind, lists_of_unlisted hread hfree, makeTable_listing hroom]

/-- A table that is listed has all columns of the index. -/
theorem lacking_listing (hs : s.IsPlain) (hread : AreRead rows) (h : ListsTable s root rows) :
    (listing logged kinds rows).lacking s = [] := by
  obtain ⟨indexes, htable, -⟩ := @table?_listing logged kinds rows s root hread h
  rw [lacking, htable, List.filter_eq_nil_iff]
  rintro ⟨column, n⟩ hx
  obtain ⟨⟨c, m⟩, hc, heq⟩ := List.mem_map.1 hx
  cases heq
  have hcolumn : column ∈ s.indexed := List.fst_mem_of_mem_zipIdx hc
  have hplace := hs.isSome_place? (hs.indexed column hcolumn)
  simpa using Option.isSome_iff_ne_none.1 hplace

theorem prepareIndex_listing (hs : s.IsPlain)
    (hread : AreRead (rows ++ [indexRow s (kinds.length + 2)])) (hviews : LacksViews rows)
    (hfree : Unlisted s.indexName rows) (h : ListsTable s root rows)
    (hroom : HasRoom (rows ++ [indexRow s (kinds.length + 2)])) :
    outcome (prepareIndex (.ok ⟨⟩) s) (listing logged kinds rows) =
      (.ok ⟨⟩, listing logged (kinds ++ [.index]) (rows ++ [indexRow s (kinds.length + 2)])) := by
  have hread' : AreRead rows := fun values hvalues =>
    hread values (List.mem_append_left _ hvalues)
  have hview : (listing logged kinds rows).lists ["view"] s.name = false := by
    rw [lists, listings_listing hread', List.any_eq_false]
    intro l hl
    simp [hviews l hl]
  simp [prepareIndex, outcome_bind, hview, lists_of_unlisted hread' hfree,
    lacking_listing hs hread' h, makeIndex_listing hread hroom h]

/-- An index lies where it is listed. -/
theorem root_of_indexOf? {f : TableForm} {l : Listing} {x : StoredIndex}
    (h : indexOf? f l = some x) : x.root = l.root := by
  unfold indexOf? at h
  split at h
  · obtain ⟨n, -, h⟩ := Option.bind_eq_some_iff.1 h
    obtain ⟨places, -, h⟩ := Option.bind_eq_some_iff.1 h
    exact congrArg StoredIndex.root (Option.some.inj h).symm
  · exact congrArg StoredIndex.root (Option.some.inj h).symm

/-- Rows none of which lists the list itself. -/
def LacksRoot (rows : List (List Value)) : Prop :=
  ∀ l ∈ rows.filterMap listing?, l.root ≠ listingRoot

instance (rows : List (List Value)) : Decidable (LacksRoot rows) :=
  inferInstanceAs (Decidable (∀ l ∈ _, _))

/-- **A table that was made and put nothing into** has no rows, nor have its indexes. -/
theorem rowsOf?_listing (hread : AreRead rows) (h : ListsTable s root rows)
    (hroots : LacksRoot rows) : DatabaseFile.rowsOf? (listing logged kinds rows) s = some [] := by
  obtain ⟨indexes, htable, hindexes⟩ := @table?_listing logged kinds rows s root hread h
  let t : StoredTable := ⟨s.name, root, s.form, indexes⟩
  have hrows : (listing logged kinds rows).rows t = [] := rows_listing (Nat.ne_of_gt h.root.1)
  have hkeeps : t.indexes.all ((listing logged kinds rows).keepsIndex t) = true := by
    refine List.all_eq_true.2 fun x hx => ?_
    obtain ⟨l, hl, -, hindex⟩ := hindexes x hx
    have hroot : x.root ≠ listingRoot := root_of_indexOf? hindex ▸ hroots l hl
    have hentries : ((listing logged kinds rows).tree x.root).entries .index = [] := by
      rw [tree_listing_of_ne hroot]
      rfl
    rw [keepsIndex, hrows, hentries, List.map_nil, List.mergeSort_nil]
    rfl
  rw [DatabaseFile.rowsOf?, htable]
  show (if t.indexes.all _ = true then _ else none) = _
  rw [if_pos hkeeps, hrows]
  rfl

/-! ## Lemmas: preparing -/

/-- What a file lists once it is prepared. -/
def preparedRows : List (List Value) :=
  [tableRow .routines 2, keyRow .routines 3, indexRow .routines 4,
   tableRow .parameters 5, keyRow .parameters 6, indexRow .parameters 7]

/-- The trees of a file once it is prepared. -/
def preparedKinds : List TreeKind := [.table, .index, .index, .table, .index, .index]

/-- A listing of a table is little longer than the definition of that. -/
theorem size_tableRow_le (s : TableSchema) (root : Nat) :
    (Record.encode (tableRow s root)).size ≤
      73 + 3 * s.name.utf8ByteSize + s.definition.utf8ByteSize := by
  have hlength : (tableRow s root).length ≤ 14 := by
    show 5 ≤ 14
    decide
  have hroot : (Value.int (Int64.ofNat root)).bytes.size ≤ 8 := by
    rcases Value.int_cases (Int64.ofNat root) with h | h | ⟨size, code, hsize, -, hbytes, -⟩
    · rw [h]
      decide
    · rw [h]
      decide
    · rw [hbytes]
      have hle : ∀ x ∈ Value.sizesAndCodes, x.1 ≤ 8 := by decide
      exact (length_bytesOf size _).trans_le (hle _ hsize)
  have hcommand : s.command.utf8ByteSize = 14 + s.name.utf8ByteSize + s.definition.utf8ByteSize := by
    rw [TableSchema.command, String.utf8ByteSize_append, String.utf8ByteSize_append,
      String.utf8ByteSize_append]
    have hwords : "CREATE TABLE ".utf8ByteSize = 13 ∧ " ".utf8ByteSize = 1 := ⟨rfl, rfl⟩
    omega
  have hsum := Record.size_encode_le hlength
  have hvalues : ((tableRow s root).map fun v => 9 + v.bytes.size).sum =
      9 + "table".utf8ByteSize + (9 + s.name.utf8ByteSize + (9 + s.name.utf8ByteSize +
        (9 + (Value.int (Int64.ofNat root)).bytes.size + (9 + s.command.utf8ByteSize + 0)))) := rfl
  have hkind : "table".utf8ByteSize = 5 := rfl
  omega

set_option maxRecDepth 4000 in
theorem utf8ByteSize_definition : TableSchema.routines.definition.utf8ByteSize ≤ 300 ∧
    TableSchema.parameters.definition.utf8ByteSize ≤ 360 := by
  constructor <;>
    exact (String.utf8ByteSize_ofList _).trans_le (by decide +kernel)

theorem hasRoom_preparedRows : HasRoom preparedRows := by
  obtain ⟨hroutines, hparameters⟩ := utf8ByteSize_definition
  have hindexes : (∀ values ∈ [keyRow .routines 3, indexRow .routines 4],
        (Record.encode values).size ≤ 480) ∧
      ∀ values ∈ [keyRow .parameters 6, indexRow .parameters 7],
        (Record.encode values).size ≤ 480 := by decide +kernel
  have hnames : TableSchema.routines.name.utf8ByteSize = 7 ∧
      TableSchema.parameters.name.utf8ByteSize = 13 := ⟨rfl, rfl⟩
  have hroutinesRow := size_tableRow_le .routines 2
  have hparametersRow := size_tableRow_le .parameters 5
  refine ⟨by decide, fun values hvalues => ?_⟩
  simp only [preparedRows, List.mem_cons, List.not_mem_nil, or_false] at hvalues
  rcases hvalues with rfl | rfl | rfl | rfl | rfl | rfl
  · omega
  · exact hindexes.1 _ (by simp)
  · exact hindexes.1 _ (by simp)
  · omega
  · exact hindexes.2 _ (by simp)
  · exact hindexes.2 _ (by simp)

theorem areRead_preparedRows : AreRead preparedRows := by
  intro values hvalues
  have hshort := hasRoom_preparedRows.short values hvalues
  simp only [preparedRows, List.mem_cons, List.not_mem_nil, or_false] at hvalues
  rcases hvalues with rfl | rfl | rfl | rfl | rfl | rfl
  · exact decode?_listingValues (Or.inr ⟨_, rfl⟩) hshort
  · exact decode?_listingValues (Or.inl rfl) hshort
  · exact decode?_listingValues (Or.inr ⟨_, rfl⟩) hshort
  · exact decode?_listingValues (Or.inr ⟨_, rfl⟩) hshort
  · exact decode?_listingValues (Or.inl rfl) hshort
  · exact decode?_listingValues (Or.inr ⟨_, rfl⟩) hshort

/-- What a prepared file lists up to some row. -/
theorem prepared_take (n : Nat) : AreRead (preparedRows.take n) ∧ HasRoom (preparedRows.take n) :=
  ⟨areRead_preparedRows.sublist (List.take_sublist ..),
    hasRoom_preparedRows.sublist (List.take_sublist ..)⟩

theorem listsTable_routines : ListsTable .routines 2 (preparedRows.take 2) :=
  ⟨⟨[], [keyRow .routines 3], rfl, by decide⟩, by decide⟩

theorem listsTable_parameters : ListsTable .parameters 5 (preparedRows.take 5) :=
  ⟨⟨preparedRows.take 3, [keyRow .parameters 6], rfl, by decide +kernel⟩, by decide⟩

/-- **A file without pages is prepared** to hold both tables and their indexes. -/
theorem prepare_fresh (logged : Bool) :
    outcome (prepare (.ok ⟨⟩)) (fresh logged) =
      (.ok ⟨⟩, listing logged preparedKinds preparedRows) := by
  have hroutines : outcome (prepareTable (.ok ⟨⟩) .routines) (fresh logged) =
      (.ok ⟨⟩, listing logged (preparedKinds.take 2) (preparedRows.take 2)) :=
    @prepareTable_listing logged [] [] .routines (prepared_take 0).1 (by decide)
      (prepared_take 2).2
  have hindex : outcome (prepareIndex (.ok ⟨⟩) .routines)
        (listing logged (preparedKinds.take 2) (preparedRows.take 2)) =
      (.ok ⟨⟩, listing logged (preparedKinds.take 3) (preparedRows.take 3)) :=
    prepareIndex_listing TableSchema.isPlain_routines (prepared_take 3).1 (by decide +kernel)
      (by decide +kernel) listsTable_routines (prepared_take 3).2
  have hparameters : outcome (prepareTable (.ok ⟨⟩) .parameters)
        (listing logged (preparedKinds.take 3) (preparedRows.take 3)) =
      (.ok ⟨⟩, listing logged (preparedKinds.take 5) (preparedRows.take 5)) :=
    prepareTable_listing (prepared_take 3).1 (by decide +kernel) (prepared_take 5).2
  have hindex' : outcome (prepareIndex (.ok ⟨⟩) .parameters)
        (listing logged (preparedKinds.take 5) (preparedRows.take 5)) =
      (.ok ⟨⟩, listing logged preparedKinds preparedRows) :=
    prepareIndex_listing TableSchema.isPlain_parameters (prepared_take 6).1 (by decide +kernel)
      (by decide +kernel) listsTable_parameters (prepared_take 6).2
  rw [prepare, outcome_bind_of_ok hroutines, outcome_bind_of_ok hindex,
    outcome_bind_of_ok hparameters, hindex']

/-- Nothing is made where it cannot be written. -/
theorem prepare_fresh_error (logged : Bool) (fault : Fault) :
    outcome (prepare (.error fault)) (fresh logged) = (.error fault, fresh logged) := by
  have hread : AreRead [] := fun values hvalues => by cases hvalues
  have hfree : Unlisted TableSchema.routines.name [] := by decide
  have hfresh : fresh logged = listing logged [] [] := rfl
  simp [prepare, outcome_bind, prepareTable, hfresh, lists_of_unlisted hread hfree]

/-- **The tables of a prepared file** hold nothing. -/
theorem storeOf?_prepared (logged : Bool) :
    DatabaseFile.storeOf? (listing logged preparedKinds preparedRows) = some .empty := by
  have hroots : LacksRoot preparedRows := by decide +kernel
  have hlists : DatabaseFile.listsStore (listing logged preparedKinds preparedRows) = true := by
    rw [listsStore_listing areRead_preparedRows]
    simp [preparedRows, tableRow, keyRow, indexRow, listingValues, listing?, TableSchema.made]
  have hutf8 : (listing logged preparedKinds preparedRows).hasUtf8 = true := rfl
  rw [DatabaseFile.storeOf?, hutf8, hlists, Bool.and_self, if_pos rfl,
    rowsOf?_listing areRead_preparedRows (listsTable_routines.append (preparedRows.drop 2)) hroots,
    rowsOf?_listing areRead_preparedRows (listsTable_parameters.append (preparedRows.drop 5)) hroots]
  rfl

end Image

end RoutineParams.Storage
