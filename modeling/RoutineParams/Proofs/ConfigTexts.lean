import RoutineParams.ConfigText
import RoutineParams.Proofs.TomlEntries

/-!
# Configurations read from their texts

A configuration is written as a document with one entry for each setting. Whatever an entry's
value is, it is read as it was written before the end of a line, and so the document is read entry
by entry.

    c.text? = some text → Config.ofText? text = some c                 (Config.ofText?_of_text?)
-/

namespace RoutineParams

/-! ## Lemmas: configurations -/

theorem Toml.isTextOf_writeString (text : String) :
    IsTextOf (writeString text) (.string text) := by
  obtain ⟨q, s, hs, hq⟩ := exists_writeString text
  refine ⟨⟨q, s, hs, by rcases hq with rfl | rfl <;> decide⟩, fun rest => ?_⟩
  exact readValue_writeString maxDepth text (endsString_cons (by decide) rest)

theorem Toml.isTextOf_writeStrings (items : List String) :
    IsTextOf (writeStrings items) (.array (items.map .string)) := by
  refine ⟨?_, fun rest => readValue_writeStrings 78 items _⟩
  match items with
  | [] | [_] | _ :: _ :: _ => exact ⟨'[', _, rfl, by decide⟩

namespace Config
variable (c : Config)

/-- A number of a configuration as an entry. -/
def numberEntry (key : String) (n : UInt64) : Toml.Entry :=
  ⟨key, decimal n.toNat, .integer n.toNat⟩

/-- What a configuration is written as, entry by entry. -/
def entries : List Toml.Entry :=
  [⟨"database_name", Toml.writeString c.databaseName, .string c.databaseName⟩,
    ⟨"include_patterns", Toml.writeStrings c.includePatterns,
      .array (c.includePatterns.map .string)⟩,
    ⟨"ignore_patterns", Toml.writeStrings c.ignorePatterns,
      .array (c.ignorePatterns.map .string)⟩,
    numberEntry "max_file_size" c.maxFileSize] ++
  (c.threads.toList.map (numberEntry "threads") ++ [numberEntry "batch_size" c.batchSize])

/-- The numbers of a configuration can be written. -/
def IsWritable : Prop :=
  c.maxFileSize.toNat ≤ Toml.maxInteger ∧ (∀ n ∈ c.threads, n.toNat ≤ Toml.maxInteger) ∧
  c.batchSize.toNat ≤ Toml.maxInteger

end Config

theorem Toml.writeUnsigned?_eq_some {n : UInt64} {s : List Char}
    (h : writeUnsigned? n = some s) : n.toNat ≤ maxInteger ∧ s = decimal n.toNat := by
  rw [writeUnsigned?] at h
  split at h
  · next hn => exact ⟨hn, (Option.some.inj h).symm⟩
  · cases h

/-- A configuration that can be written is written entry by entry. -/
theorem Config.text?_eq_some {c : Config} {text : String} (h : c.text? = some text) :
    c.IsWritable ∧ text = String.ofList (c.entries.flatMap Toml.Entry.written) := by
  simp only [text?, Option.bind_eq_bind, Option.bind_eq_some_iff] at h
  obtain ⟨size, hsize, h⟩ := h
  obtain ⟨hsizeLe, rfl⟩ := Toml.writeUnsigned?_eq_some hsize
  rw [IsWritable, entries]
  cases hthreads : c.threads with
  | none =>
    rw [hthreads] at h
    simp only [Option.bind_some, Option.bind_eq_some_iff] at h
    obtain ⟨batch, hbatch, htext⟩ := h
    obtain ⟨hbatchLe, rfl⟩ := Toml.writeUnsigned?_eq_some hbatch
    refine ⟨⟨hsizeLe, by simp, hbatchLe⟩, ?_⟩
    rw [← Option.some.inj htext]
    simp [Toml.Entry.written, numberEntry]
  | some n =>
    rw [hthreads] at h
    simp only [Option.bind_eq_some_iff, Option.map_eq_some_iff] at h
    obtain ⟨threads, ⟨number, hnumber, rfl⟩, batch, hbatch, htext⟩ := h
    obtain ⟨hnumberLe, rfl⟩ := Toml.writeUnsigned?_eq_some hnumber
    obtain ⟨hbatchLe, rfl⟩ := Toml.writeUnsigned?_eq_some hbatch
    refine ⟨⟨hsizeLe, by simpa using hnumberLe, hbatchLe⟩, ?_⟩
    rw [← Option.some.inj htext]
    simp [Toml.Entry.written, numberEntry]

/-- No key of a configuration needs quotes. -/
theorem Config.isReadable_of_key {e : Toml.Entry}
    (hkey : e.key ∈ ["database_name", "include_patterns", "ignore_patterns", "max_file_size",
      "threads", "batch_size"]) (htext : Toml.IsTextOf e.text e.value) : e.IsReadable := by
  have hbare : e.key.toList ≠ [] ∧ e.key.toList.all Toml.isBare = true := by
    generalize e.key = key at hkey
    revert key
    decide
  exact ⟨hbare.1, List.all_eq_true.1 hbare.2, htext⟩

theorem Config.isReadable_entries {c : Config} (h : c.IsWritable) :
    ∀ e ∈ c.entries, e.IsReadable := by
  obtain ⟨hsize, hthreads, hbatch⟩ := h
  intro e he
  simp only [entries, List.mem_append, List.mem_cons, List.mem_map, Option.mem_toList,
    List.not_mem_nil, or_false] at he
  rcases he with (rfl | rfl | rfl | rfl) | ⟨n, hn, rfl⟩ | rfl
  · exact isReadable_of_key (by simp) (Toml.isTextOf_writeString c.databaseName)
  · exact isReadable_of_key (by simp) (Toml.isTextOf_writeStrings c.includePatterns)
  · exact isReadable_of_key (by simp) (Toml.isTextOf_writeStrings c.ignorePatterns)
  · exact isReadable_of_key (by simp [numberEntry]) (Toml.isTextOf_decimal _ hsize)
  · exact isReadable_of_key (by simp [numberEntry]) (Toml.isTextOf_decimal _ (hthreads n hn))
  · exact isReadable_of_key (by simp [numberEntry]) (Toml.isTextOf_decimal _ hbatch)

theorem Config.nodup_entries (c : Config) : (c.entries.map Toml.Entry.key).Nodup := by
  cases hc : c.threads <;> simp [entries, numberEntry, hc]

theorem Toml.Value.strings?_array (items : List String) :
    strings? (.array (items.map .string)) = some items := by
  have hread : string? ∘ Toml.Value.string = fun a => pure a := rfl
  rw [strings?, List.mapM_map, hread, List.mapM_pure, List.map_id']
  rfl

theorem Toml.Value.unsigned?_integer (n : UInt64) : unsigned? (.integer n.toNat) = some n := by
  simp [unsigned?]

theorem Config.ofEntries?_entries (c : Config) :
    ofEntries? (c.entries.map Toml.Entry.pair) = some c := by
  obtain ⟨name, includes, ignores, size, threads, batch⟩ := c
  cases threads <;>
    simp [ofEntries?, entries, numberEntry, Toml.Entry.pair, Toml.Entries.getOr, List.lookup_cons,
      Toml.Value.string?, Toml.Value.strings?_array, Toml.Value.unsigned?_integer,
      Config.standard]

/-! ## Top theorem (proved from the lemmas above) -/

/-- **A configuration is read as it was written.** -/
theorem Config.ofText?_of_text? {c : Config} {text : String} (h : c.text? = some text) :
    ofText? text = some c := by
  obtain ⟨hwritable, rfl⟩ := text?_eq_some h
  rw [ofText?, Toml.parse?_written (isReadable_entries hwritable) c.nodup_entries,
    Option.bind_some, ofEntries?_entries]

end RoutineParams
