import RoutineParams.ConfigFile
import RoutineParams.Proofs.Companions
import RoutineParams.Proofs.ConfigTexts
import RoutineParams.Proofs.Sessions

/-!
# Configurations loaded from the files that they were saved to

Where a file was written, the same path leads to it afterwards, and it holds what was written. So a
configuration that was saved is loaded again, or what makes it unfit for a run is told.

    outcome (FileChange.write path data) t = (.ok (), t') → t'.find path is a file of data
                                                                              (find_of_write)
    outcome (Config.save path c) s = (.ok (), s') → Config.load (some path) on s' gives c, or the
      fault that `validate` finds in c                                  (Config.load_after_save)
-/

namespace RoutineParams

/-! ## Lemmas: files that were written -/

namespace FileTree

/-- A file that is put where it may be written is found by its path. -/
theorem find_put {t : FileTree} {path : String} {loc : List String} {content? : Option Content}
    (h : t.fileToWrite path = .ok (loc, content?)) (content : Content) :
    (t.put loc (.file content)).find path = .ok (loc, .file content) := by
  obtain ⟨hway, hnode⟩ := fileToWrite_spec h
  have hfile : ¬t.IsDirectory loc := by
    rintro ⟨n, hn, entries, rfl⟩
    have hsome : content?.map Node.file = some (.directory entries) := hnode.symm.trans hn
    cases content? <;> cases hsome
  have hmono : ∀ p, t.IsDirectory p → (t.put loc (.file content)).IsDirectory p :=
    fun p hp => Node.isDirectoryAt_put_of_not hfile hp _
  exact find_of_way (hway.mono hmono rfl) (node?_put_self t loc _)

end FileTree

namespace FileChange

theorem outcome_ofTree_ok {f : FileTree → Except FileFault FileTree} {t t' : FileTree}
    (h : outcome (ofTree f) t = (.ok (), t')) : f t = .ok t' := by
  rw [ofTree, outcome_bind, outcome_get] at h
  dsimp only at h
  cases hf : f t with
  | error fault => rw [hf] at h; cases h
  | ok u =>
    rw [hf] at h
    exact congrArg Except.ok (Prod.mk.inj h).2

/-- **A file that was written is found by its path.** -/
theorem find_of_write {path : String} {data : ByteArray} {t t' : FileTree}
    (h : outcome (write path data) t = (.ok (), t')) :
    ∃ loc, t'.find path = .ok (loc, .file (.bytes data)) := by
  have hwrite := outcome_ofTree_ok h
  cases hfile : t.fileToWrite path with
  | error fault => rw [hfile] at hwrite; cases hwrite
  | ok x =>
    obtain ⟨loc, content?⟩ := x
    rw [hfile] at hwrite
    obtain rfl : t.put loc (.file (.bytes data)) = t' := Except.ok.inj hwrite
    exact ⟨loc, FileTree.find_put hfile _⟩

theorem find_of_save {path : String} {data : ByteArray} {t t' : FileTree}
    (h : outcome (save path data) t = (.ok (), t')) :
    ∃ loc, t'.find path = .ok (loc, .file (.bytes data)) := by
  obtain ⟨_, _, -, hwrite⟩ := outcome_bind_ok h
  exact find_of_write hwrite

end FileChange

/-- The text that was saved is read. -/
theorem Content.text?_toByteArray (text : String) :
    (Content.bytes text.toByteArray).text? = some text := by
  rw [text?, String.fromUTF8?, dif_pos text.isValidUTF8]
  rfl

/-! ## Lemmas: actions -/

theorem Action.outcome_change {α : Type} (asError : FileFault → Error) (m : FileChange α)
    (s : Session) :
    outcome (Action.change asError m) s =
      ((outcome m s.files).1.mapError asError, ⟨(outcome m s.files).2, s.printed⟩) := by
  have hrun : (ExceptT.run m).run s.files = outcome m s.files := rfl
  rw [Action.change, outcome_bind, outcome_get]
  dsimp only
  rw [hrun]
  obtain ⟨r, t⟩ := outcome m s.files
  cases r <;> rfl

/-- What a configuration was saved to holds its text. -/
theorem Config.read_of_save {path : String} {c : Config} {s s' : Session}
    (h : outcome (Config.save path c) s = (.ok (), s')) :
    ∃ text, c.text? = some text ∧ s'.files.hasNode path = true ∧
      s'.files.read path = .ok text := by
  rw [Config.save] at h
  cases htext : c.text? with
  | none => rw [htext] at h; cases h
  | some text =>
    rw [htext] at h
    have hchange := (Action.outcome_change _ _ s).symm.trans h
    obtain ⟨hanswer, hsession⟩ := Prod.mk.inj hchange
    have hsave : outcome (FileChange.save path text.toByteArray) s.files = (.ok (), s'.files) := by
      rw [← hsession]
      generalize outcome (FileChange.save path text.toByteArray) s.files = r at hanswer ⊢
      obtain ⟨r, t⟩ := r
      cases r with
      | error fault => cases hanswer
      | ok a => rfl
    obtain ⟨loc, hfind⟩ := FileChange.find_of_save hsave
    refine ⟨text, rfl, ?_, FileTree.read_of_find hfind (Content.text?_toByteArray text)⟩
    rw [FileTree.hasNode, hfind]
    rfl

theorem Config.eq_of_validate {c d : Config} (h : c.validate = .ok d) : c = d := by
  rw [validate] at h
  split at h
  · cases h
  · exact Except.ok.inj h

/-! ## Top theorem (proved from the lemmas above) -/

namespace Config

/-- **A saved configuration is loaded as it was saved**, if it is fit for a run; else what makes it
unfit is told. -/
theorem load_after_save {path : String} {c : Config} {s s' : Session}
    (h : (save path c).result s = (.ok (), s')) :
    (∀ d, c.validate = .ok d → (load (some path)).result s' = (.ok c, s')) ∧
    ∀ f, c.validate = .error f → (load (some path)).result s' = (.error (.config f), s') := by
  obtain ⟨text, htext, hnode, hread⟩ := read_of_save h
  have hload : (load (some path)).result s' = (loadFrom path s'.files, s') :=
    Action.outcome_ask _ s'
  rw [hload, loadFrom, if_pos hnode, hread]
  simp only [Config.read, ofText?_of_text? htext]
  constructor
  · intro d hd
    obtain rfl : c = d := eq_of_validate hd
    rw [hd]
  · intro f hf
    rw [hf]

/-- A configuration whose texts cannot stand between one pair of double quotes as they are. -/
def quoted (batchSize : UInt64) : Config where
  databaseName := "it's \"\"\"quoted\"\"\"\\\n"
  includePatterns := ["**/*.sql", "C:\\'scripts'\\*"]
  ignorePatterns := []
  maxFileSize := 9223372036854775807
  threads := some 4
  batchSize := batchSize

theorem load_after_save_quoted :
    (∃ s', (save "conf/run.toml" (quoted 1)).result (.start ⟨.directory [], []⟩) = (.ok (), s') ∧
      (load (some "conf/run.toml")).result s' = (.ok (quoted 1), s')) ∧
    ∃ s', (save "conf/run.toml" (quoted 0)).result (.start ⟨.directory [], []⟩) = (.ok (), s') ∧
      (load (some "conf/run.toml")).result s' = (.error (.config .noBatch), s') := by
  have hsaved : ∀ n ∈ [1, 0], ((save "conf/run.toml" (quoted n)).result
      (.start ⟨.directory [], []⟩)).1 = .ok () := by
    intro n hn
    simp only [List.mem_cons, List.not_mem_nil, or_false] at hn
    rcases hn with rfl | rfl <;> rfl
  have hfit := load_after_save (Prod.ext (hsaved 1 (by simp)) rfl)
  have hunfit := load_after_save (Prod.ext (hsaved 0 (by simp)) rfl)
  exact ⟨⟨_, Prod.ext (hsaved 1 (by simp)) rfl, hfit.1 (quoted 1) rfl⟩,
    ⟨_, Prod.ext (hsaved 0 (by simp)) rfl, hunfit.2 .noBatch rfl⟩⟩

end Config

end RoutineParams
