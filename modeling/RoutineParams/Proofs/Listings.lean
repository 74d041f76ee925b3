import RoutineParams.DatabaseFile
import RoutineParams.Proofs.Records

/-!
# Files that list little

What a file lists lies on its first page as long as it is little: row by row, under the numbers from
1 on. A row more is put after the others, or in place of one of them, and each row is read as it was
written. What is listed then is told by the rows alone.

    Image.listing logged kinds rows                  a file that lists rows and has empty trees
    makeTable (listing logged kinds rows) s          lists a table and its key more
                                                                              (makeTable_listing)
    listings (listing logged kinds rows) = rows.filterMap listing?             (listings_listing)
-/

namespace RoutineParams.Storage

/-! ## Lists of rows -/

/-- Rows under the numbers from `n` on. -/
def numberedFrom (n : Nat) (rows : List (List Value)) : List Entry :=
  (rows.zipIdx n).map fun row => .row (Int64.ofNat row.2) row.1

/-- Trees of some kinds without entries, at the pages after the first. -/
def emptyTrees (kinds : List TreeKind) : List (Nat × StoredTree) :=
  (kinds.zipIdx 2).map fun kind => (kind.2, ⟨kind.1, .empty⟩)

/-- A file whose first page lists `rows`, with trees of some kinds that have no entries. -/
def Image.listing (logged : Bool) (kinds : List TreeKind) (rows : List (List Value)) : Image where
  page := .standard
  encoding := utf8Encoding
  logged
  counts := ⟨kinds.length + 1, 0⟩
  trees := (listingRoot, ⟨.table, .leaf (numberedFrom 1 rows)⟩) :: emptyTrees kinds

/-- Rows that the first page of a file has room for. -/
structure HasRoom (rows : List (List Value)) : Prop where
  length : rows.length ≤ 7
  short : ∀ values ∈ rows, (Record.encode values).size ≤ 480

namespace Image

/-- What a file lists of a table. -/
def tableRow (s : TableSchema) (root : Nat) : List Value :=
  listingValues "table" s.name s.name root (.text s.command)

/-- What it lists of the index that keeps the key of a table. -/
def keyRow (s : TableSchema) (root : Nat) : List Value :=
  listingValues "index" s.keyName s.name root .null

/-- What it lists of the other index of a table. -/
def indexRow (s : TableSchema) (root : Nat) : List Value :=
  listingValues "index" s.indexName s.name root (.text s.indexCommand)

end Image

/-! ## Lemmas: putting rows -/

theorem numberedFrom_cons (n : Nat) (values : List Value) (rows : List (List Value)) :
    numberedFrom n (values :: rows) = .row (Int64.ofNat n) values :: numberedFrom (n + 1) rows := by
  rw [numberedFrom, List.zipIdx_cons, List.map_cons]
  rfl

theorem cmp_row {m n : Nat} (hm : m < 2 ^ 63) (hn : n < 2 ^ 63) (v w : List Value) :
    (Entry.row (Int64.ofNat m) v).cmp (Entry.row (Int64.ofNat n) w) = compare m n := by
  show (compare (Int64.ofNat m) (Int64.ofNat n)).then .eq = compare m n
  rcases Nat.lt_trichotomy m n with hlt | rfl | hgt
  · rw [Std.compare_eq_lt.2 ((Int64.ofNat_lt_iff_lt hm hn).2 hlt), Nat.compare_eq_lt.2 hlt]
    rfl
  · rw [Std.compare_self, Std.compare_self]
    rfl
  · rw [Std.compare_eq_gt.2 ((Int64.ofNat_lt_iff_lt hn hm).2 hgt), Nat.compare_eq_gt.2 hgt]
    rfl

/-- The row with the next number comes after all others, and one with the number of a row takes its
place. -/
theorem putEntry_numberedFrom {n : Nat} {before : List (List Value)} (values : List Value)
    (rest : List (List Value)) (hn : n + before.length < 2 ^ 63) :
    putEntry (.row (Int64.ofNat (n + before.length)) values) (numberedFrom n (before ++ rest)) =
      numberedFrom n (before ++ values :: rest.drop 1) := by
  induction before generalizing n with
  | nil =>
    cases rest with
    | nil => rfl
    | cons w rest =>
      rw [List.length_nil, Nat.add_zero] at hn ⊢
      rw [List.nil_append, numberedFrom_cons, putEntry, cmp_row hn hn, Std.compare_self,
        List.nil_append, List.drop_one, List.tail_cons, numberedFrom_cons]
  | cons w before ih =>
    rw [List.length_cons] at hn ⊢
    rw [List.cons_append, List.cons_append, numberedFrom_cons, numberedFrom_cons, putEntry,
      cmp_row hn (by omega), Nat.compare_eq_gt.2 (by omega)]
    have hnext := ih (n := n + 1) (by omega)
    rw [Nat.add_right_comm] at hnext
    exact congrArg _ hnext

/-! ## Lemmas: room -/

theorem HasRoom.sublist {rows rows' : List (List Value)} (h : HasRoom rows)
    (hrows : rows'.Sublist rows) : HasRoom rows' :=
  ⟨hrows.length_le.trans h.length, fun values hvalues => h.short values (hrows.subset hvalues)⟩

theorem shortSize_le (n : Nat) : shortSize n ≤ 9 := by
  have hle : ∀ more n, shortSizeWithin more n ≤ more + 1 := by
    intro more
    induction more with
    | zero => exact fun n => Nat.le_refl 1
    | succ more ih =>
      intro n
      rw [shortSizeWithin]
      split
      · omega
      · exact Nat.succ_le_succ (ih (n / 128))
  exact hle 8 n

/-- The form of the first page of a file. -/
def listingFormat : TreeFormat := ⟨.standard, .table, Image.headerSize⟩

theorem share_of_short {payload : Nat} (h : payload ≤ 480) :
    listingFormat.share payload = payload := by
  have hmax : listingFormat.maxShare = 4061 := rfl
  rw [TreeFormat.share, if_pos (by omega)]

/-- A short row takes no other page. -/
theorem spillCount_of_short {payload : Nat} (h : payload ≤ 480) :
    listingFormat.spillCount payload = 0 := by
  rw [TreeFormat.spillCount, share_of_short h, Nat.sub_self]
  rfl

theorem entrySize_le {e : Entry} (h : e.payload.size ≤ 480) :
    listingFormat.entrySize true e ≤ 498 := by
  have hrowid := shortSize_le (unsigned e.rowid)
  have hpayload := shortSize_le e.payload.size
  show shortSize (unsigned e.rowid) + listingFormat.indexSize e ≤ 498
  rw [TreeFormat.indexSize, share_of_short h, if_neg (Nat.lt_irrefl _)]
  omega

/-- Few short rows do not overfill the first page. -/
theorem HasRoom.isOverfull {rows : List (List Value)} (h : HasRoom rows) (n : Nat) :
    listingFormat.isOverfull true (.leaf (numberedFrom n rows)) = false := by
  have hused : ∀ (rows : List (List Value)) (n used : Nat),
      (∀ values ∈ rows, (Record.encode values).size ≤ 480) →
      (numberedFrom n rows).foldl (fun n e => n + listingFormat.entrySize true e + 2) used ≤
        used + 500 * rows.length := by
    intro rows
    induction rows with
    | nil => exact fun n used _ => Nat.le_refl used
    | cons values rows ih =>
      intro n used hshort
      have hsize := entrySize_le (e := .row (Int64.ofNat n) values)
        (hshort values List.mem_cons_self)
      have hrest := ih (n + 1) (used + listingFormat.entrySize true (.row (Int64.ofNat n) values) + 2)
        fun v hv => hshort v (List.mem_cons_of_mem _ hv)
      rw [numberedFrom_cons, List.foldl_cons, List.length_cons]
      omega
  have hroom : listingFormat.roomOn true (.leaf (numberedFrom n rows)) = 3988 := rfl
  have hle := hused rows n 0 h.short
  have hlength := h.length
  rw [TreeFormat.isOverfull, hroom, TreeFormat.usedBy, TreeFormat.used]
  exact decide_eq_false (by omega)

/-! ## Lemmas: changes of a list -/

/-- A short row is put into a page that stays short. -/
theorem run_insert_leaf {e : Entry} {entries : List Entry} (counts : PageCounts)
    (hshort : e.payload.size ≤ 480)
    (hroom : listingFormat.isOverfull true (.leaf (putEntry e entries)) = false) :
    (Tree.insert ⟨listingFormat, false⟩ e (.leaf entries)).run counts =
      (.leaf (putEntry e entries), counts) := by
  have htake : counts.take 0 = counts := by simp [PageCounts.take]
  simp [Tree.insert, Tree.put, closeRoot, spillCount_of_short hshort, hroom, htake]
  rfl

namespace Image

variable {logged : Bool} {kinds : List TreeKind} {rows : List (List Value)}

theorem emptyTrees_concat (kinds : List TreeKind) (kind : TreeKind) :
    emptyTrees (kinds ++ [kind]) = emptyTrees kinds ++ [(kinds.length + 2, ⟨kind, .empty⟩)] := by
  rw [emptyTrees, List.zipIdx_append, List.map_append, Nat.add_comm 2]
  rfl

theorem of_mem_emptyTrees {kinds : List TreeKind} {t : Nat × StoredTree}
    (h : t ∈ emptyTrees kinds) : t.1 ≠ listingRoot ∧ t.2.tree = .empty := by
  obtain ⟨kind, hkind, rfl⟩ := List.mem_map.1 h
  have hle := List.le_snd_of_mem_zipIdx hkind
  refine ⟨?_, rfl⟩
  show kind.2 ≠ 1
  omega

/-- All trees but the list have no entries. -/
theorem tree_listing_of_ne {root : Nat} (h : root ≠ listingRoot) :
    (listing logged kinds rows).tree root = .empty := by
  rw [tree, listing, List.lookup_cons, beq_eq_false_iff_ne.2 h]
  cases hlookup : (emptyTrees kinds).lookup root with
  | none => rfl
  | some t =>
    obtain ⟨before, rest, htrees, -⟩ := List.lookup_eq_some_iff.1 hlookup
    have hmem : (root, t) ∈ emptyTrees kinds := by
      rw [htrees]
      simp
    exact (of_mem_emptyTrees hmem).2

theorem change_of_lookup {im : Image} {root : Nat} {inOrder : Bool}
    {f : Changing → Tree → StateM PageCounts Tree} {t : StoredTree} {tree : Tree}
    {counts : PageCounts} (hlookup : im.trees.lookup root = some t)
    (hrun : (f ⟨im.formatAt root t.kind, inOrder⟩ t.tree).run im.counts = (tree, counts)) :
    im.change root inOrder f = { im with
      counts
      trees := im.trees.map fun x => if x.1 = root then (root, { t with tree }) else x } := by
  simp only [change, hlookup, hrun]

theorem insert_listing {before : List (List Value)} (values : List Value)
    (rest : List (List Value)) (h : HasRoom (before ++ values :: rest.drop 1)) :
    (listing logged kinds (before ++ rest)).insert listingRoot
        (.row (Int64.ofNat (1 + before.length)) values) =
      listing logged kinds (before ++ values :: rest.drop 1) := by
  have hlength : 1 + before.length < 2 ^ 63 := by
    have hle := h.length
    rw [List.length_append, List.length_cons] at hle
    omega
  have hput := putEntry_numberedFrom values rest hlength
  have hroom : listingFormat.isOverfull true (.leaf (putEntry
      (.row (Int64.ofNat (1 + before.length)) values) (numberedFrom 1 (before ++ rest)))) =
      false := hput ▸ h.isOverfull 1
  have hrun := run_insert_leaf (e := .row (Int64.ofNat (1 + before.length)) values)
    ⟨kinds.length + 1, 0⟩ (h.short values (by simp)) hroom
  have hothers : (emptyTrees kinds).map (fun x => if x.1 = listingRoot then
      (listingRoot, ⟨.table, .leaf (numberedFrom 1 (before ++ values :: rest.drop 1))⟩) else x) =
      emptyTrees kinds :=
    (List.map_congr_left fun t ht => if_neg (of_mem_emptyTrees ht).1).trans (List.map_id _)
  rw [hput] at hrun
  rw [insert, change_of_lookup (t := ⟨.table, .leaf (numberedFrom 1 (before ++ rest))⟩) rfl hrun]
  exact congrArg (Image.mk _ _ _ _) (congrArg (_ :: ·) hothers)

theorem append_listing {values : List Value} (h : HasRoom (rows ++ [values])) :
    (listing logged kinds rows).append listingRoot values =
      (Int64.ofNat (1 + rows.length), listing logged kinds (rows ++ [values])) := by
  have hlast : ((listing logged kinds rows).tree listingRoot).lastRowid + 1 =
      Int64.ofNat (1 + rows.length) := by
    show (Tree.leaf (numberedFrom 1 rows)).lastRowid + 1 = _
    rcases List.eq_nil_or_concat' rows with rfl | ⟨before, last, rfl⟩
    · rfl
    · have hnumbered : numberedFrom 1 (before ++ [last]) =
          numberedFrom 1 before ++ [.row (Int64.ofNat (1 + before.length)) last] := by
        rw [numberedFrom, List.zipIdx_append, List.map_append]
        rfl
      rw [Tree.lastRowid, hnumbered, List.getLast?_concat, List.length_append, ← Nat.add_assoc,
        Int64.ofNat_add (1 + before.length)]
      rfl
  have hinsert := @insert_listing logged kinds rows values [] h
  rw [List.append_nil] at hinsert
  rw [append, hlast, hinsert]
  rfl

theorem addTree_listing (kind : TreeKind) :
    (listing logged kinds rows).addTree kind =
      (kinds.length + 2, listing logged (kinds ++ [kind]) rows) := by
  rw [listing, listing, emptyTrees_concat, List.length_append]
  rfl

theorem makeTable_listing {s : TableSchema}
    (h : HasRoom (rows ++ [tableRow s (kinds.length + 2), keyRow s (kinds.length + 3)])) :
    (listing logged kinds rows).makeTable s =
      listing logged (kinds ++ [.table, .index])
        (rows ++ [tableRow s (kinds.length + 2), keyRow s (kinds.length + 3)]) := by
  have hnulls : HasRoom (rows ++ [List.replicate 5 .null, keyRow s (kinds.length + 3)]) := by
    refine ⟨by simpa using h.length, fun values hvalues => ?_⟩
    rcases List.mem_append.1 hvalues with hvalues | hvalues
    · exact h.short values (by simp [hvalues])
    rcases List.mem_cons.1 hvalues with rfl | hvalues
    · decide +kernel
    · exact h.short values (by simp [List.mem_singleton.1 hvalues])
  have hfirst : HasRoom (rows ++ [List.replicate 5 .null]) :=
    hnulls.sublist (by simp)
  have hkey : HasRoom (rows ++ [List.replicate 5 .null] ++ [keyRow s (kinds.length + 3)]) := by
    rwa [List.append_assoc]
  have hlast := @insert_listing logged (kinds ++ [.table] ++ [.index]) rows _
    [List.replicate 5 .null, keyRow s (kinds.length + 3)] h
  rw [makeTable, addTree_listing]
  dsimp only
  rw [append_listing hfirst]
  dsimp only
  rw [addTree_listing]
  dsimp only
  rw [List.length_append, List.length_singleton, show listingValues "index" s.keyName s.name
    (kinds.length + 1 + 2) .null = keyRow s (kinds.length + 3) from rfl, append_listing hkey]
  rw [List.append_assoc kinds] at hlast ⊢
  rw [List.append_assoc]
  exact hlast

/-- A table whose tree is not the list has no rows. -/
theorem rows_listing {t : StoredTable} (h : t.root ≠ listingRoot) :
    (listing logged kinds rows).rows t = [] := by
  rw [Image.rows, tree_listing_of_ne h]
  rfl

/-! ## Lemmas: what is listed -/

/-- A short row that lists something is read as it was written. -/
theorem decode?_listingValues {kind name table : String} {root : Nat} {command : Value}
    (hcommand : command = .null ∨ ∃ s, command = .text s)
    (h : (Record.encode (listingValues kind name table root command)).size ≤ 480) :
    Record.decode? (Record.encode (listingValues kind name table root command)) =
      some (listingValues kind name table root command) := by
  have hlength : (listingValues kind name table root command).length ≤ 14 := by
    show 5 ≤ 14
    decide
  have htext : ∀ s, .text s ∈ listingValues kind name table root command →
      (Value.text s).IsKept := by
    intro s hs
    have hle : s.utf8ByteSize ≤ _ := Record.size_bytes_le hlength hs
    show s.utf8ByteSize < 2 ^ 32
    omega
  refine Record.decode?_encode (fun v hv => ?_) hlength
  cases v with
  | null | int n => trivial
  | text s => exact htext s hv
  | real x =>
    rcases hcommand with rfl | ⟨s, rfl⟩ <;> simp [listingValues] at hv
  | brokenText data =>
    rcases hcommand with rfl | ⟨s, rfl⟩ <;> simp [listingValues] at hv
  | blob data =>
    rcases hcommand with rfl | ⟨s, rfl⟩ <;> simp [listingValues] at hv

/-- Rows that are read as they were written. -/
def AreRead (rows : List (List Value)) : Prop :=
  ∀ values ∈ rows, Record.decode? (Record.encode values) = some values

theorem AreRead.sublist {rows rows' : List (List Value)} (h : AreRead rows)
    (hrows : rows'.Sublist rows) : AreRead rows' := fun values hvalues =>
  h values (hrows.subset hvalues)

theorem records_listing (h : AreRead rows) :
    (((listing logged kinds rows).tree listingRoot).entries .table).map Entry.record = rows := by
  have hentries : ((listing logged kinds rows).tree listingRoot).entries .table =
      numberedFrom 1 rows := by
    show (Tree.leaf (numberedFrom 1 rows)).entries .table = _
    rw [Tree.entries]
  have hmap : (rows.zipIdx 1).map Prod.fst = rows := List.zipIdx_map_fst ..
  rw [hentries, numberedFrom, List.map_map]
  conv => rhs; rw [← hmap]
  refine List.map_congr_left fun row hrow => ?_
  have hmem : row.1 ∈ rows := hmap ▸ List.mem_map_of_mem hrow
  show (Record.decode? (Record.encode row.1)).getD [] = row.1
  rw [h row.1 hmem]
  rfl

theorem listings_listing (h : AreRead rows) :
    (listing logged kinds rows).listings = rows.filterMap listing? := by
  conv => rhs; rw [← @records_listing logged kinds rows h, List.filterMap_map]
  rfl

theorem listsStore_listing (h : AreRead rows) :
    DatabaseFile.listsStore (listing logged kinds rows) = rows.all fun values =>
      (listing? values).any fun l => [TableSchema.routines, .parameters].any fun s =>
        l.table == s.name && s.made.contains (l.kind, l.name, l.command) := by
  conv => rhs; rw [← @records_listing logged kinds rows h, List.all_map]
  rfl

/-- Rows that list nothing under a name. -/
def Unlisted (name : String) (rows : List (List Value)) : Prop :=
  ∀ l ∈ rows.filterMap listing?, sameName l.name name = false

instance (name : String) (rows : List (List Value)) : Decidable (Unlisted name rows) :=
  inferInstanceAs (Decidable (∀ l ∈ _, _))

/-- Rows that list a table at a page after the first, and nothing under its name before it. -/
structure ListsTable (s : TableSchema) (root : Nat) (rows : List (List Value)) : Prop where
  row : ∃ before after, rows = before ++ tableRow s root :: after ∧ Unlisted s.name before
  root : listingRoot < root ∧ root < 2 ^ 63

theorem ListsTable.append {s : TableSchema} {root : Nat} (h : ListsTable s root rows)
    (more : List (List Value)) : ListsTable s root (rows ++ more) := by
  obtain ⟨before, after, rfl, hbefore⟩ := h.row
  exact ⟨⟨before, after ++ more, by simp, hbefore⟩, h.root⟩

theorem lists_of_unlisted {name : String} (hread : AreRead rows) (h : Unlisted name rows)
    (ks : List String) : (listing logged kinds rows).lists ks name = false := by
  rw [lists, listings_listing hread, List.any_eq_false]
  intro l hl
  simp [h l hl]

theorem listing?_tableRow (s : TableSchema) {root : Nat} (hroot : root < 2 ^ 63) :
    listing? (tableRow s root) = some ⟨"table", s.name, s.name, root, s.command⟩ := by
  have htoNat : (Int64.ofNat root).toInt.toNat = root := by
    rw [Int64.toInt_ofNat_of_lt hroot]
    rfl
  show some (Listing.mk _ _ _ _ _) = _
  rw [htoNat]

/-- **A table that is listed** is found with the form that its command gives it. -/
theorem table?_listing {s : TableSchema} {root : Nat} (hread : AreRead rows)
    (h : ListsTable s root rows) :
    ∃ indexes, (listing logged kinds rows).table? s.name =
        some ⟨s.name, root, s.form, indexes⟩ ∧
      ∀ x ∈ indexes, ∃ l ∈ rows.filterMap listing?, l.kind = "index" ∧
        indexOf? s.form l = some x := by
  obtain ⟨⟨before, after, hrows, hbefore⟩, -, hroot⟩ := h
  have hnone : (before.filterMap listing?).find?
      (fun l => l.kind == "table" && sameName l.name s.name) = none := by
    rw [List.find?_eq_none]
    intro l hl
    simp [hbefore l hl]
  have hfind : (rows.filterMap listing?).find?
      (fun l => l.kind == "table" && sameName l.name s.name) =
      some ⟨"table", s.name, s.name, root, s.command⟩ := by
    rw [hrows, List.filterMap_append, List.find?_append, hnone,
      List.filterMap_cons_some (listing?_tableRow s hroot), List.find?_cons_of_pos (by
        simp [sameName])]
    rfl
  rw [table?, listings_listing hread, hfind]
  refine ⟨_, rfl, fun x hx => ?_⟩
  obtain ⟨l, hl, hindex⟩ := List.mem_filterMap.1 (List.mem_reverse.1 hx)
  obtain ⟨hl, hkind⟩ := List.mem_filter.1 hl
  exact ⟨l, hl, beq_iff_eq.1 (Bool.and_eq_true_iff.1 hkind).1, hindex⟩

theorem makeIndex_listing {s : TableSchema} {root : Nat}
    (hread : AreRead (rows ++ [indexRow s (kinds.length + 2)]))
    (hroom : HasRoom (rows ++ [indexRow s (kinds.length + 2)])) (h : ListsTable s root rows) :
    (listing logged kinds rows).makeIndex s =
      listing logged (kinds ++ [.index]) (rows ++ [indexRow s (kinds.length + 2)]) := by
  obtain ⟨indexes, htable, -⟩ := @table?_listing logged (kinds ++ [.index]) _ s root hread
    (h.append _)
  rw [makeIndex, addTree_listing]
  dsimp only
  rw [show listingValues "index" s.indexName s.name (kinds.length + 2) (.text s.indexCommand) =
    indexRow s (kinds.length + 2) from rfl, append_listing hroom]
  dsimp only
  rw [htable]
  dsimp only
  -- the table has no rows yet
  rw [rows_listing (Nat.ne_of_gt h.root.1), List.map_nil, List.mergeSort_nil, List.foldl_nil]

end Image

end RoutineParams.Storage
