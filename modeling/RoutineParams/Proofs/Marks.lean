import RoutineParams.Proofs.Overwriting
import RoutineParams.Storage.Writer

/-!
# Files that are marked as logged

A file is marked by writing over a few bytes of its header: what tells that changes are first
written to a log, how many changes there were, how many pages there are, and which version wrote
them. The pages are no part of that. So a file that was read before is read as the same image after,
but for the mark.

    Image.ofBytes (markLogged data h) h is the image of data, logged             (ofBytes_markLogged)
    a file without pages is read as a fresh image                                       (ofBytes_fresh)
-/

namespace RoutineParams.Storage

/-! ## Lemmas: images of marked files -/

/-- The image with another mark. -/
def Image.marked (im : Image) (logged : Bool) : Image := { im with logged }

variable {data : ByteArray} {h : Header} {im : Image}

/-- The mark of an image is only noted. -/
theorem PagedFile.readImage_eq (p : PagedFile) (h : Header) (logged : Bool) (left : Nat) :
    (p.readImage h logged).run left =
      ((p.readImage h false).run left).map fun x => (x.1.marked logged, x.2) := by
  unfold readImage
  simp only [StateT.run_bind]
  cases (p.readTree .table maxLevels Image.listingRoot).run left with
  | error fault => rfl
  | ok x =>
    obtain ⟨listing, left⟩ := x
    simp only [bind, Except.bind]
    have hroots : ∀ logged, (Image.mk p.page h.encoding logged ⟨p.count, h.freeCount⟩
        [(Image.listingRoot, ⟨.table, listing⟩)]).listings =
      (Image.mk p.page h.encoding false ⟨p.count, h.freeCount⟩
        [(Image.listingRoot, ⟨.table, listing⟩)]).listings := fun _ => rfl
    rw [hroots logged]
    split <;> rfl

theorem ofBytes_markLogged (hsize : headerLength ≤ data.size) (h : Header)
    (hknown : Header.isKnown data = true) :
    Image.ofBytes (Header.markLogged data h) h =
      (Image.ofBytes data h).map (Image.marked · true) := by
  unfold Image.ofBytes
  rw [Header.drop_markLogged hsize, (Header.isKnown_markLogged hsize h hknown).2]
  simp only [bind, Except.bind]
  rw [PagedFile.readImage_eq _ _ true, PagedFile.readImage_eq _ _ (Header.isLogged data)]
  cases (PagedFile.readImage ⟨Header.drop data, h.page, h.pageCount⟩ h false).run h.pageCount <;> rfl

/-- A reader after a reader has read what both read. -/
theorem PageReader.run_bind_ok {α β : Type} {m : PageReader α} {f : α → PageReader β} {left : Nat}
    {x : β × Nat} (hread : (m >>= f).run left = .ok x) :
    ∃ a left', m.run left = .ok (a, left') ∧ (f a).run left' = .ok x := by
  rw [StateT.run_bind] at hread
  cases hm : m.run left with
  | error fault =>
    rw [hm] at hread
    cases hread
  | ok y =>
    rw [hm] at hread
    exact ⟨y.1, y.2, rfl, hread⟩

/-- A page that was read is there. -/
theorem PagedFile.of_read {p : PagedFile} {number left left' : Nat} {page : ByteArray}
    (hread : (p.read number).run left = .ok (page, left')) :
    number ≤ p.count ∧ page = p.page.fill
      (p.data.extract ((number - 1) * p.page.size) (number * p.page.size)) := by
  obtain ⟨_, _, hget, hread⟩ := PageReader.run_bind_ok hread
  cases hget
  split at hread
  · cases hread
  · rename_i hthere
    obtain ⟨_, _, hset, hread⟩ := PageReader.run_bind_ok hread
    cases hread
    exact ⟨by omega, rfl⟩

/-- A page of which a tree is read is there, and marked as one of its kind. -/
theorem PagedFile.of_readTree {p : PagedFile} {kind : TreeKind} {levels number left : Nat}
    {x : Tree × Nat} (hread : (p.readTree kind levels number).run left = .ok x) :
    number ≤ p.count ∧ ∃ isLeaf, (p.page.fill (p.data.extract ((number - 1) * p.page.size)
      (number * p.page.size)))[if number = Image.listingRoot then headerLength else 0]? =
        some (pageMark kind isLeaf) := by
  cases levels with
  | zero => cases hread
  | succ levels =>
    rw [readTree] at hread
    obtain ⟨page, _, hpage, hread⟩ := PageReader.run_bind_ok hread
    obtain ⟨hcount, rfl⟩ := of_read hpage
    refine ⟨hcount, ?_⟩
    extract_lets start place at hread
    obtain ⟨mark, _, hmark, hread⟩ := PageReader.run_bind_ok hread
    obtain ⟨count, _, -, hread⟩ := PageReader.run_bind_ok hread
    have hrequired : ∀ {o : Option UInt8} {left y}, (require o).run left = .ok y → o = some y.1 := by
      rintro (_ | o) left y ho <;> cases ho
      rfl
    have hmark := hrequired hmark
    split at hread
    · rename_i hleaf
      exact ⟨true, hmark.trans (congrArg some hleaf)⟩
    · split at hread
      · rename_i hbranch
        exact ⟨false, hmark.trans (congrArg some hbranch)⟩
      · cases hread

/-- A file with an image has a first page that is no header only. -/
theorem size_of_ofBytes (him : Image.ofBytes data h = .ok im) :
    headerLength < data.size ∧ h.pageCount ≠ 0 := by
  have hrun : ∃ x, (PagedFile.readImage ⟨Header.drop data, h.page, h.pageCount⟩ h
      (Header.isLogged data)).run h.pageCount = .ok x := by
    unfold Image.ofBytes at him
    simp only [bind, Except.bind] at him
    split at him
    · cases him
    · exact ⟨_, ‹_›⟩
  obtain ⟨x, hrun⟩ := hrun
  obtain ⟨tree, _, htree, -⟩ := PageReader.run_bind_ok hrun
  obtain ⟨hcount, isLeaf, hmark⟩ := PagedFile.of_readTree htree
  refine ⟨Nat.not_le.1 fun hle => ?_, fun hzero => by simp [hzero, Image.listingRoot] at hcount⟩
  -- what stands in place of the header is zero, and so is what a page lacks
  obtain ⟨n, hzeros⟩ : ∃ n, (h.page.fill ((Header.drop data).extract
      ((Image.listingRoot - 1) * h.page.size) (Image.listingRoot * h.page.size))).data.toList =
        List.replicate n 0 := by
    have hnone : (data.extract headerLength data.size).data.toList = [] := by
      rw [ByteArray.data_extract, Array.toList_extract, List.extract_eq_take_drop,
        List.drop_eq_nil_of_le hle, List.take_nil]
    rw [PageFormat.fill, ByteArray.data_append, Array.toList_append, ByteArray.data_extract,
      Array.toList_extract, List.extract_eq_take_drop, Header.drop, ByteArray.data_append,
      Array.toList_append, hnone, List.append_nil]
    simp
  have hmem := List.mem_of_getElem? ((getElem?_toList _ _).symm.trans hmark)
  rw [hzeros] at hmem
  have hnot : ∀ isLeaf, PagedFile.pageMark .table isLeaf ≠ 0 := by decide
  exact hnot isLeaf (List.eq_of_mem_replicate hmem)

/-! ## Lemmas: a file without pages, marked -/

/-- The page of a file in which nothing is listed. -/
def Image.freshPage : ByteArray :=
  PageFormat.standard.fill
    (TreeFormat.pageBytes ⟨.standard, .table, headerLength⟩ listingRoot none [])

/-- The bytes of a file in which nothing is listed, up to the last that is not zero. -/
def Image.freshBytes : List UInt8 :=
  formatName.data.toList ++ [16, 0, 2, 2, 0, 64, 32, 32] ++ bytesOf 4 1 ++ bytesOf 4 1 ++
    List.replicate 8 0 ++ bytesOf 4 1 ++ bytesOf 4 4 ++ List.replicate 8 0 ++ bytesOf 4 1 ++
    List.replicate 32 0 ++ bytesOf 4 1 ++ bytesOf 4 formatVersion ++ [13, 0, 0, 0, 0, 16, 0, 0]

theorem Image.toBytes_fresh (logged : Bool) : (fresh logged).toBytes =
    (fresh logged).header 0 ++ freshPage.extract headerLength freshPage.size := by
  have hnone : (List.range ((fresh logged).counts.total + 1)).filter (fun n =>
      0 < n && !((fresh logged).trees.map (·.1)).contains n) = [] := by
    cases logged <;> rfl
  unfold toBytes
  extract_lets roots left write
  have hwrite : write.run ⟨left, []⟩ = (0, ⟨[], [(1, freshPage)]⟩) := by
    rw [show left = [] from hnone]
    rfl
  rw [hwrite]
  simp only [List.mergeSort_singleton, List.foldl_cons, List.foldl_nil, ByteArray.empty_append]

theorem Image.toList_freshPage : freshPage.data.toList =
    List.replicate headerLength 0 ++ ([13, 0, 0, 0, 0, 16, 0, 0] ++ List.replicate 3988 0) := by
  have hpage : ∀ f : TreeFormat, TreeFormat.pageBytes f listingRoot none [] =
      let front := List.replicate headerLength (0 : UInt8) ++
        [PagedFile.pageMark f.kind true, 0, 0] ++ bytesOf 2 0 ++ bytesOf 2 f.page.usable ++ [0]
      ⟨(front ++ List.replicate (f.page.usable - front.length) 0).toArray⟩ ++ .empty := by
    intro f
    simp [TreeFormat.pageBytes, TreeFormat.places]
  have husable : PageFormat.standard.usable = 4096 := rfl
  have hbytes : bytesOf 2 0 = [0, 0] ∧ bytesOf 2 4096 = [16, 0] := by decide
  have hlist : TreeFormat.pageBytes ⟨.standard, .table, headerLength⟩ listingRoot none [] =
      ⟨(List.replicate headerLength (0 : UInt8) ++ ([13, 0, 0, 0, 0, 16, 0, 0] ++
        List.replicate 3988 0)).toArray⟩ := by
    have hfront : (List.replicate headerLength (0 : UInt8) ++ [PagedFile.pageMark .table true, 0, 0] ++
        [0, 0] ++ [16, 0] ++ [0]).length = 108 := by decide
    rw [hpage, ByteArray.append_empty]
    dsimp only
    rw [husable, hbytes.1, hbytes.2, hfront, List.append_assoc, List.append_assoc,
      List.append_assoc, List.append_assoc]
    rfl
  rw [freshPage, hlist, PageFormat.fill_of_size]
  show (List.toArray _).size = _
  rw [List.size_toArray, List.length_append, List.length_append, List.length_replicate,
    List.length_replicate]
  rfl

/-- The bytes of a marked file in which nothing is listed. -/
theorem Image.toList_toBytes_fresh :
    (fresh true).toBytes.data.toList = freshBytes ++ List.replicate 3988 0 := by
  have hheader : ((fresh true).header 0).data.toList ++ [13, 0, 0, 0, 0, 16, 0, 0] = freshBytes := by
    decide +kernel
  have hpage : (freshPage.extract headerLength freshPage.size).data.toList =
      [13, 0, 0, 0, 0, 16, 0, 0] ++ List.replicate 3988 0 := by
    have hsize : freshPage.size = freshPage.data.toList.length := rfl
    rw [ByteArray.data_extract, Array.toList_extract, List.extract_eq_take_drop, hsize,
      ← List.length_drop, List.take_length, toList_freshPage,
      List.drop_left' List.length_replicate]
  rw [toBytes_fresh, ByteArray.data_append, Array.toList_append, hpage, ← List.append_assoc, hheader]

theorem Header.getElem?_drop {i : Nat} (hi : headerLength ≤ i) : (drop data)[i]? = data[i]? := by
  have hall : data.size = data.data.toList.length := rfl
  rw [getElem?_toList, getElem?_toList, drop, ByteArray.data_append, Array.toList_append,
    List.getElem?_append_right (by simpa using hi), ByteArray.data_extract, Array.toList_extract,
    List.extract_eq_take_drop, hall, ← List.length_drop, List.take_length, List.getElem?_drop]
  simp [Nat.add_sub_cancel' hi]

/-- A tree of one page is read from it if nothing is in it. -/
theorem PagedFile.readTree_of_empty {p : PagedFile} {page : ByteArray} {left left' : Nat}
    (hread : (p.read Image.listingRoot).run left = .ok (page, left'))
    (hmark : page[headerLength]? = some 13) (hcount : numberAt? page (headerLength + 3) 2 = some 0) :
    (p.readTree .table maxLevels Image.listingRoot).run left = .ok (.empty, left') := by
  rw [show maxLevels = 19 + 1 from rfl, readTree, StateT.run_bind, hread]
  simp only [bind, Except.bind, if_pos, hmark, hcount]
  rfl

section
variable (hsize : data.size = 4096) (hat : ∀ i < 108, data[i]? = Image.freshBytes[i]?)
include hat

theorem Header.byte_of_freshBytes {i : Nat} (hi : i < 108) :
    byte data i = (Image.freshBytes[i]?.getD 0).toNat := by
  rw [byte, hat i hi]

include hsize

theorem Header.word_of_freshBytes {i : Nat} (hi : i + 4 ≤ 108) :
    word data i = numberOf ((Image.freshBytes.drop i).take 4) := by
  have hlength : Image.freshBytes.length = 108 := by decide +kernel
  have hfour : ((Image.freshBytes.drop i).take 4).length = 4 := by
    rw [List.length_take_of_le]
    rw [List.length_drop]
    omega
  have hhas : HasAt data i ((Image.freshBytes.drop i).take 4) := by
    rw [hasAt_iff, hfour]
    intro j hj
    rw [hat (i + j) (by omega), List.getElem?_take_of_lt hj, List.getElem?_drop]
  have hnumber := numberAt?_of_hasAt hhas (by omega)
  rw [hfour] at hnumber
  rw [word, hnumber, Option.getD_some]

omit hsize in
/-- The file is one of the format, and it says that its changes are logged. -/
theorem Header.isKnown_of_freshBytes : isKnown data = true ∧ isLogged data = true := by
  have hlength : formatName.data.toList.length = 16 := by decide +kernel
  have hprefix : formatName.data.toList <+: Image.freshBytes := by decide +kernel
  have hname : HasAt data 0 formatName.data.toList := by
    rw [hasAt_iff, hlength]
    intro i hi
    rw [Nat.zero_add, hat i (by omega), List.prefix_iff_getElem?.1 hprefix i (by omega),
      List.getElem?_eq_getElem]
  have hextract := hname.extract
  rw [hlength] at hextract
  rw [isKnown, isLogged, hextract, byte_of_freshBytes hat (by omega)]
  decide +kernel

/-- The header of the file states its count of pages, and it is that of the file. -/
theorem Header.read_of_freshBytes : read data = .ok ⟨.standard, 1, 0, utf8Encoding⟩ := by
  have hstates : StatesCount data ∧ word data 28 = 1 ∧ word data 36 = 0 ∧
      word data 56 = utf8Encoding := by
    unfold StatesCount
    rw [word_of_freshBytes hsize hat (by omega), word_of_freshBytes hsize hat (by omega),
      word_of_freshBytes hsize hat (by omega), word_of_freshBytes hsize hat (by omega),
      word_of_freshBytes hsize hat (by omega)]
    decide +kernel
  have hcount : countInFile data .standard = 1 := by
    rw [countInFile, hsize]
    decide
  have hsmall : [byte data 21, byte data 22, byte data 23] = [64, 32, 32] ∧
      PageFormat.standard = ⟨pageSize data, byte data 20⟩ := by
    unfold pageSize
    rw [byte_of_freshBytes hat (i := 16) (by omega), byte_of_freshBytes hat (i := 17) (by omega),
      byte_of_freshBytes hat (i := 20) (by omega), byte_of_freshBytes hat (i := 21) (by omega),
      byte_of_freshBytes hat (i := 22) (by omega), byte_of_freshBytes hat (i := 23) (by omega)]
    decide +kernel
  obtain ⟨hstates, hone, hzero, hutf8⟩ := hstates
  exact read_ok_iff.2 ⟨hsmall.1, hsmall.2, by decide, by decide, hzero.symm, hutf8.symm,
    fun _ => ⟨by rw [hone, hcount], hone.symm⟩, fun hnot => absurd hstates hnot⟩

/-- The only page of the file is the root of a tree in which nothing is. -/
theorem PagedFile.readTree_of_freshBytes :
    (readTree ⟨Header.drop data, .standard, 1⟩ .table maxLevels Image.listingRoot).run 1 =
      .ok (.empty, 0) := by
  have hdrop : (Header.drop data).size = 4096 := by
    rw [Header.drop, ByteArray.size_append, ByteArray.size_extract, hsize]
    rfl
  let p : PagedFile := ⟨Header.drop data, .standard, 1⟩
  have hread : (p.read Image.listingRoot).run 1 = .ok (Header.drop data, 0) := by
    have hpage : p.page.fill (p.data.extract 0 4096) = Header.drop data := by
      have hall : p.data.extract 0 4096 = Header.drop data := by
        rw [← hdrop]
        exact ByteArray.extract_zero_size
      rw [hall, PageFormat.fill_of_size hdrop]
    show Except.ok (p.page.fill (p.data.extract 0 4096), 0) = _
    rw [hpage]
  have hmark : (Header.drop data)[headerLength]? = some 13 := by
    rw [Header.getElem?_drop (Nat.le_refl _), hat _ (by decide)]
    decide +kernel
  have hcount : numberAt? (Header.drop data) (headerLength + 3) 2 = some 0 := by
    have hhas : HasAt data (headerLength + 3) [0, 0] := by
      rw [hasAt_iff]
      intro i hi
      have hi : i < 2 := hi
      rw [hat _ (by unfold headerLength; omega)]
      have hboth : ∀ i < 2, Image.freshBytes[headerLength + 3 + i]? = [0, 0][i]? := by
        decide +kernel
      exact hboth i hi
    rw [numberAt?_congr (fun i hi _ => Header.getElem?_drop (Nat.le_of_succ_le
      (Nat.le_of_succ_le (Nat.le_of_succ_le hi)))) (hdrop.trans hsize.symm)]
    exact numberAt?_of_hasAt hhas (by rw [hsize]; decide)
  exact readTree_of_empty hread hmark hcount

/-- The bytes that start a file in which nothing is listed are read as such. -/
theorem ofBytes_of_freshBytes :
    Header.isKnown data = true ∧ Header.isLogged data = true ∧
      Header.read data = .ok ⟨.standard, 1, 0, utf8Encoding⟩ ∧
      Image.ofBytes data ⟨.standard, 1, 0, utf8Encoding⟩ = .ok (.fresh true) := by
  obtain ⟨hknown, hlogged⟩ := Header.isKnown_of_freshBytes hat
  refine ⟨hknown, hlogged, Header.read_of_freshBytes hsize hat, ?_⟩
  have himage : (PagedFile.readImage ⟨Header.drop data, .standard, 1⟩
      ⟨.standard, 1, 0, utf8Encoding⟩ true).run 1 = .ok (.fresh true, 0) := by
    rw [PagedFile.readImage, StateT.run_bind, PagedFile.readTree_of_freshBytes hsize hat]
    rfl
  rw [Image.ofBytes, hlogged]
  simp only [bind, Except.bind]
  rw [himage]
  rfl

end

/-- **A file in which nothing is listed** is read as such after it was marked. -/
theorem ofBytes_fresh :
    isBlankFile (Image.fresh true).toBytes = false ∧
      Header.isKnown (Image.fresh true).toBytes = true ∧
      Header.isLogged (Image.fresh true).toBytes = true ∧
      Header.read (Image.fresh true).toBytes = .ok ⟨.standard, 1, 0, utf8Encoding⟩ ∧
      Image.ofBytes (Image.fresh true).toBytes ⟨.standard, 1, 0, utf8Encoding⟩ =
        .ok (.fresh true) := by
  have hlist := Image.toList_toBytes_fresh
  have hlength : Image.freshBytes.length = 108 := by decide +kernel
  have hsize : (Image.fresh true).toBytes.size = 4096 := by
    have hlist := congrArg List.length hlist
    rw [List.length_append, List.length_replicate, hlength] at hlist
    exact hlist
  refine ⟨by rw [isBlankFile, hsize]; rfl, ofBytes_of_freshBytes hsize fun i hi => ?_⟩
  rw [getElem?_toList, hlist, List.getElem?_append_left (by omega)]

end RoutineParams.Storage
