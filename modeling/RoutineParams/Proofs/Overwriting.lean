import RoutineParams.Proofs.Logs
import RoutineParams.Storage.Reader

/-!
# Headers that are written over

Bytes that are written over others leave the bytes around them. The mark of a file tells that
changes are first written to a log; what else a header says is read in the same way behind it.

    i < place ∨ place + bytes.length ≤ i → (overwrite data place bytes)[i]? = data[i]?
                                                                           (getElem?_overwrite)
    Header.read data = .ok h → Header.read (markLogged data h) = .ok h               (read_markLogged)
-/

namespace RoutineParams.Storage

/-! ## Lemmas: bytes written over others -/

section
variable {data data' : ByteArray} {start size place : Nat} {bytes : List UInt8}

theorem getElem?_toList (data : ByteArray) (i : Nat) : data[i]? = data.data.toList[i]? := by
  rw [Array.getElem?_toList]
  rfl

theorem hasAt_iff : HasAt data start bytes ↔ ∀ i < bytes.length, data[start + i]? = bytes[i]? := by
  rw [HasAt, List.prefix_iff_getElem?]
  refine forall₂_congr fun i hi => ?_
  rw [List.getElem?_drop, getElem?_toList, List.getElem?_eq_getElem hi]

/-- What is cut out depends on the bytes there only. -/
theorem extract_congr (h : ∀ i, start ≤ i → i < size → data'[i]? = data[i]?) :
    data'.extract start size = data.extract start size := by
  refine ByteArray.ext (Array.toList_inj.1 (List.ext_getElem? fun i => ?_))
  rw [ByteArray.data_extract, ByteArray.data_extract, Array.toList_extract, Array.toList_extract,
    List.extract_eq_take_drop, List.extract_eq_take_drop, List.getElem?_take, List.getElem?_take,
    List.getElem?_drop, List.getElem?_drop]
  split
  · rw [← getElem?_toList, ← getElem?_toList]
    exact h _ (Nat.le_add_right ..) (by omega)
  · rfl

theorem numberAt?_congr (h : ∀ i, start ≤ i → i < start + size → data'[i]? = data[i]?)
    (hsize : data'.size = data.size) : numberAt? data' start size = numberAt? data start size := by
  rw [numberAt?, numberAt?, hsize, extract_congr h]

/-- A number is read where its bytes are. -/
theorem numberAt?_of_hasAt (h : HasAt data start bytes) (hstart : start ≤ data.size) :
    numberAt? data start bytes.length = some (numberOf bytes) := by
  rw [numberAt?, if_pos (h.le_size hstart), h.extract, toList_eq]

theorem numberOf_lt (bytes : List UInt8) : numberOf bytes < 256 ^ bytes.length := by
  induction bytes using List.reverseRecOn with
  | nil => exact Nat.one_pos
  | append_singleton bytes byte ih =>
    have hbyte := byte.toNat_lt
    rw [numberOf_concat, List.length_append, List.length_singleton, Nat.pow_succ]
    omega

end

namespace Header

variable {data : ByteArray} {place start i : Nat} {bytes bytes' : List UInt8} {h : Header}

theorem toList_overwrite (data : ByteArray) (place : Nat) (bytes : List UInt8) :
    (overwrite data place bytes).data.toList = data.data.toList.take place ++ bytes ++
      data.data.toList.drop (place + bytes.length) := by
  have hsize : data.size = data.data.toList.length := rfl
  rw [overwrite, ByteArray.data_append, ByteArray.data_append, Array.toList_append,
    Array.toList_append, ByteArray.data_extract, ByteArray.data_extract, Array.toList_extract,
    Array.toList_extract, List.extract_eq_take_drop, List.extract_eq_take_drop, List.drop_zero,
    Nat.sub_zero, hsize, ← List.length_drop, List.take_length]

theorem size_overwrite (hplace : place + bytes.length ≤ data.size) :
    (overwrite data place bytes).size = data.size := by
  have hlength := congrArg List.length (toList_overwrite data place bytes)
  have hsize : data.size = data.data.toList.length := rfl
  rw [List.length_append, List.length_append, List.length_take, List.length_drop] at hlength
  show (overwrite data place bytes).data.toList.length = data.size
  omega

theorem hasAt_overwrite (hplace : place + bytes.length ≤ data.size) :
    HasAt (overwrite data place bytes) place bytes := by
  have hlength : (data.data.toList.take place).length = place :=
    List.length_take_of_le (Nat.le_trans (Nat.le_add_right ..) hplace)
  refine ⟨data.data.toList.drop (place + bytes.length), ?_⟩
  rw [toList_overwrite, List.append_assoc, List.drop_left' hlength]

/-- Other bytes stay. -/
theorem getElem?_overwrite (hplace : place + bytes.length ≤ data.size)
    (hi : i < place ∨ place + bytes.length ≤ i) : (overwrite data place bytes)[i]? = data[i]? := by
  have hlength : (data.data.toList.take place).length = place :=
    List.length_take_of_le (Nat.le_trans (Nat.le_add_right ..) hplace)
  rw [getElem?_toList, getElem?_toList, toList_overwrite]
  rcases hi with hi | hi
  · rw [List.append_assoc, List.getElem?_append_left (by omega), List.getElem?_take_of_lt hi]
  · rw [List.getElem?_append_right (by rw [List.length_append]; omega), List.getElem?_drop,
      List.length_append, hlength]
    congr 1
    omega

theorem hasAt_overwrite_of_apart (hplace : place + bytes.length ≤ data.size)
    (hapart : start + bytes'.length ≤ place ∨ place + bytes.length ≤ start)
    (hhas : HasAt data start bytes') : HasAt (overwrite data place bytes) start bytes' := by
  rw [hasAt_iff] at hhas ⊢
  intro j hj
  rw [getElem?_overwrite hplace (by omega)]
  exact hhas j hj

/-! ## Lemmas: the mark -/

/-- The bytes that tell how many changes there were. -/
def changeBytes (data : ByteArray) : List UInt8 := bytesOf 4 (word data 24 + 1)

/-- Places of a header that the mark leaves as they are. -/
def IsLeft (i : Nat) : Prop := i < 18 ∨ 20 ≤ i ∧ i < 24 ∨ 32 ≤ i ∧ i < 92 ∨ headerLength ≤ i

/-- What the mark writes, and what it leaves. -/
theorem markLogged_spec (hsize : headerLength ≤ data.size) (h : Header) :
    (markLogged data h).size = data.size ∧
      HasAt (markLogged data h) 18 [2, 2] ∧
      HasAt (markLogged data h) 24 (changeBytes data ++ bytesOf 4 h.pageCount) ∧
      HasAt (markLogged data h) 92 (changeBytes data ++ bytesOf 4 formatVersion) ∧
      ∀ i, IsLeft i → (markLogged data h)[i]? = data[i]? := by
  have hlength : ∀ n, (changeBytes data ++ bytesOf 4 n).length = 8 := fun n => by
    simp [changeBytes]
  have hsize : 100 ≤ data.size := hsize
  have hfirst : 18 + [(2 : UInt8), 2].length ≤ data.size := by simpa using by omega
  have hsecond : 24 + (changeBytes data ++ bytesOf 4 h.pageCount).length ≤
      (overwrite data 18 [2, 2]).size := by rw [size_overwrite hfirst, hlength]; omega
  have hthird : 92 + (changeBytes data ++ bytesOf 4 formatVersion).length ≤ (overwrite
      (overwrite data 18 [2, 2]) 24 (changeBytes data ++ bytesOf 4 h.pageCount)).size := by
    rw [size_overwrite hsecond, size_overwrite hfirst, hlength]; omega
  refine ⟨?_, ?_, ?_, hasAt_overwrite hthird, fun i hi => ?_⟩
  · exact (size_overwrite hthird).trans ((size_overwrite hsecond).trans (size_overwrite hfirst))
  · exact hasAt_overwrite_of_apart hthird (Or.inl (by simp))
      (hasAt_overwrite_of_apart hsecond (Or.inl (by simp)) (hasAt_overwrite hfirst))
  · exact hasAt_overwrite_of_apart hthird (Or.inl (by rw [hlength]; omega)) (hasAt_overwrite hsecond)
  · unfold IsLeft headerLength at hi
    refine (getElem?_overwrite hthird (by rw [hlength]; omega)).trans ?_
    refine (getElem?_overwrite hsecond (by rw [hlength]; omega)).trans ?_
    exact getElem?_overwrite hfirst (by simpa using by omega)

theorem word_of_hasAt {n : Nat} (hhas : HasAt data i (bytesOf 4 n)) (hi : i ≤ data.size) :
    word data i = n % maxPages := by
  have hword := numberAt?_of_hasAt hhas hi
  rw [length_bytesOf] at hword
  rw [word, hword, Option.getD_some, numberOf_bytesOf]
  rfl

theorem word_lt (data : ByteArray) (i : Nat) : word data i < maxPages := by
  unfold word numberAt?
  split
  · rename_i hle
    have hlength : (data.extract i (i + 4)).toList.length = 4 := by
      rw [toList_eq]
      show (data.extract i (i + 4)).size = 4
      rw [ByteArray.size_extract]
      omega
    have hlt := numberOf_lt (data.extract i (i + 4)).toList
    rw [hlength] at hlt
    exact hlt
  · decide

/-- How many pages a file has by its size. -/
def countInFile (data : ByteArray) (page : PageFormat) : Nat :=
  (data.size + page.size - 1) / page.size % maxPages

/-- Whether a header states how many pages there are. -/
def StatesCount (data : ByteArray) : Prop := word data 28 ≠ 0 ∧ word data 24 = word data 92

/-- What the header of a file says, by its bytes. -/
theorem read_ok_iff {page : PageFormat} {pageCount freeCount encoding : Nat} :
    read data = .ok ⟨page, pageCount, freeCount, encoding⟩ ↔
      [byte data 21, byte data 22, byte data 23] = [64, 32, 32] ∧
      page = ⟨pageSize data, byte data 20⟩ ∧ PageFormat.sizes.contains page.size = true ∧
      480 ≤ page.usable ∧ freeCount = word data 36 ∧ encoding = word data 56 ∧
      (StatesCount data → word data 28 ≤ countInFile data page ∧ pageCount = word data 28) ∧
      (¬StatesCount data → pageCount = countInFile data page) := by
  unfold read
  extract_lets page' inFile stated isStated
  constructor
  · intro hread
    split at hread
    · cases hread
    rename_i hmarks
    split at hread
    · cases hread
    rename_i hsizes
    split at hread
    · cases hread
    rename_i hlong
    split at hread
    · cases hread
    rename_i hroom
    obtain ⟨rfl, rfl, rfl, rfl⟩ := Header.mk.inj (Except.ok.inj hread)
    exact ⟨by simpa using hmarks, rfl, by simpa using hsizes, Nat.not_lt.1 hroom, rfl, rfl,
      fun hstated => ⟨Nat.not_lt.1 fun hlt => hlong ⟨hstated, hlt⟩, if_pos hstated⟩,
      fun hnot => if_neg hnot⟩
  · rintro ⟨hmarks, rfl, hsizes, hroom, rfl, rfl, hstates, hnot⟩
    rw [if_neg (not_not.2 hmarks), if_neg (not_not.2 hsizes),
      if_neg fun h => Nat.not_lt.2 (hstates h.1).1 h.2, if_neg (Nat.not_lt.2 hroom)]
    refine congrArg (fun n => Except.ok (Header.mk page' n _ _)) ?_
    split
    · rename_i hstated
      exact (hstates hstated).2.symm
    · rename_i hstated
      exact (hnot hstated).symm

/-- There are not more pages than there are numbers for them. -/
theorem pageCount_lt (hread : read data = .ok h) : h.pageCount < maxPages := by
  obtain ⟨page, pageCount, freeCount, encoding⟩ := h
  obtain ⟨-, -, -, -, -, -, hstates, hnot⟩ := read_ok_iff.1 hread
  show pageCount < maxPages
  by_cases hstated : StatesCount data
  · rw [(hstates hstated).2]
    exact word_lt ..
  · rw [hnot hstated]
    exact Nat.mod_lt _ (by decide)

/-- **A header is read as before** after its file was marked. -/
theorem read_markLogged (hsize : headerLength ≤ data.size) (hread : read data = .ok h)
    (hcount : h.pageCount ≠ 0) : read (markLogged data h) = .ok h := by
  obtain ⟨hsame, -, hfirst, hsecond, hleft⟩ := markLogged_spec hsize h
  have hlt := pageCount_lt hread
  obtain ⟨page, pageCount, freeCount, encoding⟩ := h
  generalize markLogged data ⟨page, pageCount, freeCount, encoding⟩ = marked at *
  have hbyte : ∀ i, IsLeft i → byte marked i = byte data i := fun i hi => by
    rw [byte, byte, hleft i hi]
  have hword : ∀ i, 32 ≤ i → i + 4 ≤ 92 → word marked i = word data i := fun i hi hi' => by
    rw [word, word, numberAt?_congr (fun j hj hj' => hleft j ?_) hsame]
    unfold IsLeft
    omega
  have hsize : 100 ≤ data.size := hsize
  rw [HasAt.append_iff] at hfirst hsecond
  have hchanges : word marked 24 = word marked 92 := by
    rw [changeBytes] at hfirst hsecond
    rw [word_of_hasAt hfirst.1 (by omega), word_of_hasAt hsecond.1 (by omega)]
  have hstated : word marked 28 = pageCount := by
    have hcount := hfirst.2
    rw [changeBytes, length_bytesOf] at hcount
    rw [word_of_hasAt hcount (by omega), Nat.mod_eq_of_lt hlt]
  have hin : countInFile marked page = countInFile data page := by
    rw [countInFile, countInFile, hsame]
  have hpageSize : pageSize marked = pageSize data := by
    rw [pageSize, pageSize, hbyte 16 (by unfold IsLeft; omega), hbyte 17 (by unfold IsLeft; omega)]
  obtain ⟨hmarks, hpage, hsizes, hroom, hfree, hencoding, hstates, hnot⟩ := read_ok_iff.1 hread
  refine read_ok_iff.2 ⟨?_, ?_, hsizes, hroom, by rw [hword 36 (by omega) (by omega), hfree],
    by rw [hword 56 (by omega) (by omega), hencoding], fun _ => ⟨?_, hstated.symm⟩,
    fun hnot => absurd ⟨hstated ▸ hcount, hchanges⟩ hnot⟩
  · rwa [hbyte 21 (by unfold IsLeft; omega), hbyte 22 (by unfold IsLeft; omega),
      hbyte 23 (by unfold IsLeft; omega)]
  · rw [hpage, hpageSize, hbyte 20 (by unfold IsLeft; omega)]
  · rw [hstated, hin]
    by_cases hold : StatesCount data
    · obtain ⟨hle, rfl⟩ := hstates hold
      exact hle
    · exact (hnot hold).le

/-- The mark is no part of the pages. -/
theorem drop_markLogged (hsize : headerLength ≤ data.size) (h : Header) :
    drop (markLogged data h) = drop data := by
  obtain ⟨hsame, -, -, -, hleft⟩ := markLogged_spec hsize h
  rw [drop, drop, hsame, extract_congr fun i hi _ => hleft i (Or.inr (Or.inr (Or.inr hi)))]

/-- A file that is marked says so, and its version is known. -/
theorem isKnown_markLogged (hsize : headerLength ≤ data.size) (h : Header)
    (hknown : isKnown data = true) :
    isKnown (markLogged data h) = true ∧ isLogged (markLogged data h) = true := by
  obtain ⟨hsame, hversion, -, -, hleft⟩ := markLogged_spec hsize h
  have hbyte : byte (markLogged data h) 19 = 2 := by
    have hlast := hasAt_iff.1 hversion 1 (by simp)
    rw [byte, hlast]
    rfl
  have hname : (markLogged data h).extract 0 16 = data.extract 0 16 :=
    extract_congr fun i _ hi => hleft i (by unfold IsLeft; omega)
  unfold isKnown at hknown ⊢
  rw [Bool.and_eq_true] at hknown
  rw [hname, hknown.1, hbyte, isLogged, hbyte]
  exact ⟨rfl, rfl⟩

end Header

end RoutineParams.Storage
