import Mathlib.Data.List.Infix
import Mathlib.Tactic.Ring
import RoutineParams.Storage.Record

/-!
# Records are read as they were written

What a record is written as is read back as the values that were written: each short form of a
number ends where the next one starts, and the codes of the values tell how many bytes each one
takes. That is so for whole numbers, texts and nulls.

    data has shortBytes n at start → readShort? data start gives n          (readShort?_shortBytes)
    vs.length ≤ 14 → Record.decode? (Record.encode vs) = some vs                   (decode?_encode)
-/

namespace RoutineParams.Storage

/-- Data has some bytes from a place on. -/
def HasAt (data : ByteArray) (start : Nat) (bytes : List UInt8) : Prop :=
  bytes <+: data.data.toList.drop start

namespace HasAt

variable {data : ByteArray} {start : Nat} {a b : List UInt8}

theorem append_iff :
    HasAt data start (a ++ b) ↔ HasAt data start a ∧ HasAt data (start + a.length) b := by
  unfold HasAt
  constructor
  · rintro ⟨rest, hrest⟩
    rw [List.append_assoc] at hrest
    refine ⟨⟨_, hrest⟩, rest, ?_⟩
    rw [← List.drop_drop, ← hrest, List.drop_left]
  · rintro ⟨⟨rest, hrest⟩, more, hmore⟩
    rw [← List.drop_drop, ← hrest, List.drop_left] at hmore
    exact ⟨more, by rw [List.append_assoc, hmore, hrest]⟩

theorem getElem? {byte : UInt8} (h : HasAt data start (byte :: b)) : data[start]? = some byte := by
  obtain ⟨rest, hrest⟩ := h
  have hzero : (data.data.toList.drop start)[0]? = some byte := by rw [← hrest]; rfl
  rw [List.getElem?_drop, Nat.add_zero, Array.getElem?_toList] at hzero
  exact hzero

theorem le_size (h : HasAt data start b) (hstart : start ≤ data.size) :
    start + b.length ≤ data.size := by
  have hle : b.length ≤ data.size - start := by
    have hlength := List.IsPrefix.length_le h
    rwa [List.length_drop, Array.length_toList] at hlength
  omega

theorem extract (h : HasAt data start b) :
    data.extract start (start + b.length) = ⟨b.toArray⟩ := by
  obtain ⟨rest, hrest⟩ := h
  refine ByteArray.ext (Array.toList_inj.1 ?_)
  rw [ByteArray.data_extract, Array.toList_extract, List.extract_eq_take_drop, ← hrest,
    Nat.add_sub_cancel_left, List.take_left]

end HasAt

/-! ## Numbers -/

theorem numberOf_concat (bytes : List UInt8) (byte : UInt8) :
    numberOf (bytes ++ [byte]) = numberOf bytes * 256 + byte.toNat := by
  rw [numberOf, List.foldl_concat]
  rfl

/-- The bytes of a number write it, as far as they are enough. -/
theorem numberOf_bytesOf (size n : Nat) : numberOf (bytesOf size n) = n % 256 ^ size := by
  induction size generalizing n with
  | zero => rw [Nat.pow_zero, Nat.mod_one]; rfl
  | succ size ih =>
    have hbyte : (UInt8.ofNat n).toNat = n % 256 := UInt8.toNat_ofNat'
    rw [bytesOf, numberOf_concat, ih, hbyte, Nat.pow_succ', Nat.mod_mul, Nat.add_comm,
      Nat.mul_comm]

@[simp] theorem length_bytesOf (size n : Nat) : (bytesOf size n).length = size := by
  induction size generalizing n with
  | zero => rfl
  | succ size ih => rw [bytesOf, List.length_append, ih]; rfl

@[simp] theorem length_markedGroups (count n : Nat) : (markedGroups count n).length = count := by
  induction count generalizing n with
  | zero => rfl
  | succ count ih => rw [markedGroups, List.length_append, ih]; rfl

/-- The short form of a number has room for it. -/
theorem lt_of_shortSizeWithin {more n : Nat} (h : n < 128 ^ more) (hmore : 0 < more) :
    n < 128 ^ shortSizeWithin more n ∧ 0 < shortSizeWithin more n ∧
      shortSizeWithin more n ≤ more := by
  induction more generalizing n with
  | zero => cases hmore
  | succ more ih =>
    rw [shortSizeWithin]
    split
    · rename_i hn
      exact ⟨by simpa using hn, Nat.one_pos, Nat.le_add_left 1 more⟩
    · rename_i hn
      have hdiv : n / 128 < 128 ^ more := by
        rw [Nat.pow_succ] at h
        exact Nat.div_lt_of_lt_mul (by omega)
      have hmore : 0 < more := Nat.pos_of_ne_zero (by rintro rfl; omega)
      obtain ⟨hlt, hpos, hle⟩ := ih hdiv hmore
      refine ⟨?_, by omega, by omega⟩
      rw [Nat.pow_succ]
      omega

/-- Marked groups of bits are read one after the other. -/
theorem readShortWithin?_markedGroups {data : ByteArray} {start count n : Nat}
    (h : HasAt data start (markedGroups count n)) (more done : Nat) :
    readShortWithin? data (more + count) done start =
      readShortWithin? data more (done * 128 ^ count + n % 128 ^ count) (start + count) := by
  induction count generalizing n more with
  | zero => simp [Nat.mod_one]
  | succ count ih =>
    rw [markedGroups, HasAt.append_iff, length_markedGroups] at h
    obtain ⟨hgroups, hlast⟩ := h
    have hread := ih hgroups (more + 1)
    rw [Nat.add_right_comm, Nat.add_assoc] at hread
    have hbyte : (UInt8.ofNat (n % 128 + 128)).toNat = n % 128 + 128 := by
      rw [UInt8.toNat_ofNat', Nat.mod_eq_of_lt (by omega)]
    have hmarked : ¬UInt8.ofNat (n % 128 + 128) < 128 := by
      rw [UInt8.lt_iff_toNat_lt, hbyte]
      simp
    rw [hread, readShortWithin?, hlast.getElem?]
    simp only [Option.bind_eq_bind, Option.bind_some, if_neg hmarked, hbyte]
    rw [Nat.add_sub_cancel, Nat.pow_succ', Nat.mod_mul]
    congr 1
    ring

/-- **A short form is read where it was written.** -/
theorem readShort?_shortBytes {data : ByteArray} {start n : Nat} (hn : n < 128 ^ 8)
    (h : HasAt data start (shortBytes n)) :
    readShort? data start = some (n, start + (shortBytes n).length) := by
  obtain ⟨hlt, hpos, hle⟩ := lt_of_shortSizeWithin hn (by decide)
  have hform : shortBytes n =
      markedGroups (shortSize n - 1) (n / 128) ++ [UInt8.ofNat (n % 128)] :=
    if_pos (Nat.lt_succ_of_le hle)
  change n < 128 ^ shortSize n at hlt
  change 0 < shortSize n at hpos
  change shortSize n ≤ 8 at hle
  generalize shortSize n = size at hform hlt hpos hle
  obtain ⟨count, rfl⟩ : ∃ count, size = count + 1 := ⟨size - 1, by omega⟩
  obtain ⟨more, hmore⟩ : ∃ more, more + 1 + count = 8 := ⟨7 - count, by omega⟩
  rw [hform, HasAt.append_iff, Nat.add_sub_cancel, length_markedGroups] at h
  have hbyte : (UInt8.ofNat (n % 128)).toNat = n % 128 := by
    rw [UInt8.toNat_ofNat', Nat.mod_eq_of_lt (by omega)]
  have hlast : UInt8.ofNat (n % 128) < 128 := by
    rw [UInt8.lt_iff_toNat_lt, hbyte]
    exact Nat.mod_lt _ (by decide)
  have hdiv : n / 128 < 128 ^ count := by
    rw [Nat.pow_succ] at hlt
    exact Nat.div_lt_of_lt_mul (by omega)
  rw [readShort?, ← hmore, readShortWithin?_markedGroups h.1, readShortWithin?, h.2.getElem?]
  simp only [Option.bind_eq_bind, Option.bind_some, if_pos hlast, hbyte]
  rw [Nat.mod_eq_of_lt hdiv, hform, List.length_append, Nat.add_sub_cancel, length_markedGroups,
    Nat.zero_mul, Nat.zero_add, Nat.mul_comm, Nat.div_add_mod]
  rfl

/-! ## Bytes as lists -/

theorem toList_loop (data : ByteArray) (i : Nat) (done : List UInt8) :
    ByteArray.toList.loop data i done = done.reverse ++ data.data.toList.drop i := by
  induction i, done using ByteArray.toList.loop.induct data with
  | case1 i done hlt ih =>
    have hi : i < data.data.toList.length := hlt
    have hget : data.get! i = data.data.toList[i] := getElem!_pos data.data i hlt
    rw [ByteArray.toList.loop, if_pos hlt, ih, List.drop_eq_getElem_cons hi, hget]
    simp
  | case2 i done hge =>
    have hle : data.data.toList.length ≤ i := Nat.not_lt.1 hge
    rw [ByteArray.toList.loop, if_neg hge, List.drop_eq_nil_of_le hle, List.append_nil]

theorem toList_eq (data : ByteArray) : data.toList = data.data.toList := by
  rw [ByteArray.toList, toList_loop]
  rfl

/-! ## Values -/

/-- Values that are read as they were written. -/
def Value.IsKept : Value → Prop
  | null | int _ => True
  | text s => s.utf8ByteSize < 2 ^ 32
  | _ => False

namespace Value

theorem signed_unsigned (n : Int64) : signed 8 (unsigned n % 256 ^ 8) = n.toInt := by
  have hlt : unsigned n < 256 ^ 8 := n.toUInt64.toNat_lt
  rw [Nat.mod_eq_of_lt hlt]
  exact (BitVec.toInt_eq_toNat_cond n.toBitVec).symm

/-- How many bytes whole numbers other than 0 and 1 take, and their codes. -/
def sizesAndCodes : List (Nat × Nat) := [(1, 1), (2, 2), (3, 3), (4, 4), (6, 5), (8, 6)]

/-- A whole number takes no bytes, or as many as it needs. -/
theorem int_cases (n : Int64) :
    n = 0 ∨ n = 1 ∨ ∃ size code, (size, code) ∈ sizesAndCodes ∧ (int n).code = code ∧
      (int n).bytes = ⟨(bytesOf size (unsigned n)).toArray⟩ ∧
      signed size (unsigned n % 256 ^ size) = n.toInt := by
  by_cases hsmall : n = 0 ∨ n = 1
  · exact hsmall.imp_right Or.inl
  refine Or.inr (Or.inr ?_)
  have hsize : intSize n = ([1, 2, 3, 4, 6].find? fun size =>
      signed size (unsigned n % Nat.pow 256 size) == n.toInt).getD 8 := if_neg hsmall
  rw [code, bytes]
  cases hfind : [1, 2, 3, 4, 6].find? fun size =>
      signed size (unsigned n % Nat.pow 256 size) == n.toInt with
  | none =>
    rw [hfind] at hsize
    rw [hsize]
    exact ⟨8, 6, by decide, rfl, rfl, signed_unsigned n⟩
  | some size =>
    have hmem := List.mem_of_find?_eq_some hfind
    have hsigned : signed size (unsigned n % 256 ^ size) = n.toInt := by
      simpa using List.find?_some hfind
    rw [hfind] at hsize
    rw [hsize]
    simp only [List.mem_cons, List.not_mem_nil, or_false] at hmem
    rcases hmem with rfl | rfl | rfl | rfl | rfl
    · exact ⟨1, 1, by decide, rfl, rfl, hsigned⟩
    · exact ⟨2, 2, by decide, rfl, rfl, hsigned⟩
    · exact ⟨3, 3, by decide, rfl, rfl, hsigned⟩
    · exact ⟨4, 4, by decide, rfl, rfl, hsigned⟩
    · exact ⟨6, 5, by decide, rfl, rfl, hsigned⟩

/-- The code of a value tells how many bytes it takes. -/
theorem sizeOfCode_code {v : Value} (h : v.IsKept) : sizeOfCode v.code = v.bytes.size := by
  cases v with
  | null => rfl
  | int n =>
    have hall : ∀ p ∈ sizesAndCodes, sizeOfCode p.2 = p.1 := by decide
    rcases int_cases n with rfl | rfl | ⟨size, code, hmem, hcode, hbytes, -⟩
    · rfl
    · rfl
    · rw [hcode, hbytes, hall _ hmem]
      exact (length_bytesOf size _).symm
  | text s =>
    have hcode : sizeOfCode (2 * s.utf8ByteSize + 13) = (2 * s.utf8ByteSize + 13 - 12) / 2 := by
      rw [sizeOfCode]
      · rw [if_neg (by omega)]
      all_goals omega
    rw [code, hcode]
    show (2 * s.utf8ByteSize + 13 - 12) / 2 = s.utf8ByteSize
    omega
  | real x => exact h.elim
  | brokenText data => exact h.elim
  | blob data => exact h.elim

theorem ofBytes_code {v : Value} (h : v.IsKept) : ofBytes v.code v.bytes = v := by
  cases v with
  | null => rfl
  | int n =>
    have hall : ∀ p ∈ sizesAndCodes, ∀ data : ByteArray,
        ofBytes p.2 data = int (Int64.ofInt (signed p.1 (numberOf data.toList))) := by
      intro p hp data
      simp only [sizesAndCodes, List.mem_cons, List.not_mem_nil, or_false] at hp
      rcases hp with rfl | rfl | rfl | rfl | rfl | rfl <;> rfl
    rcases int_cases n with rfl | rfl | ⟨size, code, hmem, hcode, hbytes, hsigned⟩
    · rfl
    · rfl
    · rw [hcode, hbytes, hall _ hmem, toList_eq, List.toList_toArray, numberOf_bytesOf, hsigned,
        Int64.ofInt_toInt]
  | text s =>
    have hutf8 : String.fromUTF8? s.toByteArray = some s := by
      rw [String.fromUTF8?, dif_pos s.isValidUTF8]
      rfl
    rw [code, ofBytes]
    · rw [if_neg (by omega), if_neg (by omega), bytes, hutf8]
    all_goals omega
  | real x => exact h.elim
  | brokenText data => exact h.elim
  | blob data => exact h.elim

theorem code_lt {v : Value} (h : v.IsKept) : v.code < 128 ^ 8 := by
  cases v with
  | null => decide
  | int n =>
    have hall : ∀ p ∈ sizesAndCodes, p.2 < 128 ^ 8 := by decide
    rcases int_cases n with rfl | rfl | ⟨size, code, hmem, hcode, -⟩
    · decide
    · decide
    · rw [hcode]
      exact hall _ hmem
  | text s =>
    have hsize : s.utf8ByteSize < 2 ^ 32 := h
    rw [code]
    omega
  | real x => exact h.elim
  | brokenText data => exact h.elim
  | blob data => exact h.elim

end Value

namespace Record

variable {data : ByteArray} {start : Nat}

theorem shortBytes_ne_nil (n : Nat) : shortBytes n ≠ [] := by
  rw [shortBytes]
  split <;> simp

theorem codes?_flatMap {codes : List Nat} (hcodes : ∀ code ∈ codes, code < 128 ^ 8)
    (h : HasAt data start (codes.flatMap shortBytes)) :
    codes? data start (start + (codes.flatMap shortBytes).length) = some codes := by
  induction codes generalizing start with
  | nil =>
    rw [codes?, if_neg (by simp)]
  | cons code codes ih =>
    rw [List.flatMap_cons, HasAt.append_iff] at h
    have hread := readShort?_shortBytes (hcodes code List.mem_cons_self) h.1
    have hpos := List.length_pos_iff.2 (shortBytes_ne_nil code)
    have hrest := ih (fun code' hcode => hcodes code' (List.mem_cons_of_mem code hcode)) h.2
    rw [List.flatMap_cons, List.length_append, codes?, if_pos (by omega), hread]
    dsimp only
    rw [if_pos (by omega), ← Nat.add_assoc, hrest]
    rfl

theorem values?_flatMap {vs : List Value} (hvs : ∀ v ∈ vs, v.IsKept) (hstart : start ≤ data.size)
    (h : HasAt data start (vs.flatMap fun v => v.bytes.data.toList)) :
    values? data start (vs.map Value.code) = some vs := by
  induction vs generalizing start with
  | nil => rfl
  | cons v vs ih =>
    have hv := hvs v List.mem_cons_self
    rw [List.flatMap_cons, HasAt.append_iff] at h
    have hle := h.1.le_size hstart
    have hrest := ih (fun w hw => hvs w (List.mem_cons_of_mem v hw)) hle h.2
    have hvalue : Value.ofBytes v.code (data.extract start
        (start + v.bytes.data.toList.length)) = v := by
      rw [h.1.extract]
      exact Value.ofBytes_code hv
    have hsize : Value.sizeOfCode v.code = v.bytes.data.toList.length := Value.sizeOfCode_code hv
    rw [List.map_cons, values?, hsize, if_neg (Nat.not_lt.2 hle), hrest, hvalue]
    rfl

theorem toList_foldl_append (vs : List Value) (data : ByteArray) :
    (vs.foldl (fun data v => data ++ v.bytes) data).data.toList =
      data.data.toList ++ vs.flatMap fun v => v.bytes.data.toList := by
  induction vs generalizing data with
  | nil => simp
  | cons v vs ih =>
    rw [List.foldl_cons, ih, List.flatMap_cons, ← List.append_assoc, ByteArray.data_append,
      Array.toList_append]

theorem length_shortBytes_le (n : Nat) : (shortBytes n).length ≤ 9 := by
  rw [shortBytes]
  split
  · rw [List.length_append, length_markedGroups, List.length_singleton]
    omega
  · rw [List.length_append, length_markedGroups]
    rfl

/-- The codes of few values are short together. -/
theorem length_codes_lt {vs : List Value} (h : vs.length ≤ 14) :
    ((vs.map Value.code).flatMap shortBytes).length < 127 := by
  have hle : ∀ codes : List Nat, (codes.flatMap shortBytes).length ≤ 9 * codes.length := by
    intro codes
    induction codes with
    | nil => exact Nat.le_refl 0
    | cons code codes ih =>
      have hcode := length_shortBytes_le code
      rw [List.flatMap_cons, List.length_append, List.length_cons]
      omega
  have hcodes := hle (vs.map Value.code)
  rw [List.length_map] at hcodes
  omega

/-- The length of a head that is short takes one byte. -/
theorem length_shortBytes {n : Nat} (h : n < 127) : (shortBytes (n + 1)).length = 1 := by
  have hshort : shortSize (n + 1) = 1 := by
    rw [shortSize, shortSizeWithin, if_pos (by omega)]
  rw [shortBytes, hshort]
  rfl

theorem toList_encode {vs : List Value} (h : vs.length ≤ 14) :
    (encode vs).data.toList =
      shortBytes (((vs.map Value.code).flatMap shortBytes).length + 1) ++
        ((vs.map Value.code).flatMap shortBytes ++ vs.flatMap fun v => v.bytes.data.toList) := by
  have hcodes : (vs.flatMap fun v => shortBytes v.code) =
      (vs.map Value.code).flatMap shortBytes := by
    rw [List.flatMap_map]
  rw [encode, toList_foldl_append, hcodes, if_pos (length_codes_lt h), List.toList_toArray,
    List.append_assoc]

/-- No value is longer than the record. -/
theorem size_bytes_le {vs : List Value} (h : vs.length ≤ 14) {v : Value} (hv : v ∈ vs) :
    v.bytes.size ≤ (encode vs).size := by
  have hlength := congrArg List.length (toList_encode h)
  have hvalue : v.bytes.size ≤ (vs.flatMap fun v => v.bytes.data.toList).length := by
    obtain ⟨before, rest, rfl⟩ := List.append_of_mem hv
    rw [List.flatMap_append, List.flatMap_cons, List.length_append, List.length_append]
    show v.bytes.data.toList.length ≤ _
    omega
  rw [List.length_append, List.length_append] at hlength
  show _ ≤ (encode vs).data.toList.length
  omega

/-- A record of few values is little longer than its values. -/
theorem size_encode_le {vs : List Value} (h : vs.length ≤ 14) :
    (encode vs).size ≤ 1 + (vs.map fun v => 9 + v.bytes.size).sum := by
  have hparts : ∀ vs : List Value, ((vs.map Value.code).flatMap shortBytes).length +
      (vs.flatMap fun v => v.bytes.data.toList).length ≤
        (vs.map fun v => 9 + v.bytes.size).sum := by
    intro vs
    induction vs with
    | nil => exact Nat.le_refl 0
    | cons v vs ih =>
      have hcode := length_shortBytes_le v.code
      have hsize : v.bytes.data.toList.length = v.bytes.size := rfl
      rw [List.map_cons, List.flatMap_cons, List.flatMap_cons, List.map_cons, List.sum_cons,
        List.length_append, List.length_append]
      omega
  have hlength := congrArg List.length (toList_encode h)
  have hsize : (encode vs).data.toList.length = (encode vs).size := rfl
  have hvs := hparts vs
  rw [List.length_append, List.length_append, length_shortBytes (length_codes_lt h)] at hlength
  omega

/-- **Records of few values are read as they were written.** -/
theorem decode?_encode {vs : List Value} (hvs : ∀ v ∈ vs, v.IsKept) (h : vs.length ≤ 14) :
    decode? (encode vs) = some vs := by
  have hcodesLength := length_codes_lt h
  have hall : HasAt (encode vs) 0 (encode vs).data.toList := by
    rw [HasAt, List.drop_zero]
  rw [toList_encode h, HasAt.append_iff, HasAt.append_iff, Nat.zero_add] at hall
  obtain ⟨hsize, hcodes, hvalues⟩ := hall
  have hread := readShort?_shortBytes (by omega) hsize
  rw [length_shortBytes hcodesLength] at hcodes hvalues hread
  have hstart : 1 ≤ (encode vs).size := by
    have hle := hsize.le_size (Nat.zero_le _)
    rwa [length_shortBytes hcodesLength] at hle
  have hcodes? := codes?_flatMap (fun code hcode => ?_) hcodes
  · rw [Nat.zero_add] at hread
    rw [Nat.add_comm] at hcodes? hvalues
    rw [decode?, hread, Option.bind_eq_bind, Option.bind_some]
    dsimp only
    rw [hcodes?, Option.bind_eq_bind, Option.bind_some]
    refine values?_flatMap hvs ?_ hvalues
    rw [Nat.add_comm]
    exact hcodes.le_size hstart
  · obtain ⟨v, hv, rfl⟩ := List.mem_map.1 hcode
    exact Value.code_lt (hvs v hv)

end Record

end RoutineParams.Storage
