import RoutineParams.Proofs.Keys
import RoutineParams.Proofs.Printing
import RoutineParams.Proofs.Scans

/-!
# Scanning a directory and scanning its files one by one

A scan of a directory finds what scans of its files find, one file after the other. Only the numbers
may differ, since a file that is scanned alone is known by its name, and below a directory by its
path from there. Where the one is the other, the numbers are the same as well.

    f.parameters for each of the files, joined, are the parameters of a scan
                                                                   (parameters_of_sourceFiles)
    t.find path = .ok (loc, .file content) → what a scan of the file at `path` prints
                                                                      (printsScript_of_find)
    t.IsSound → the path of a directory and the names from there on lead to a file    (find_below)
-/

namespace RoutineParams

/-! ## Definitions -/

/-- What a parameter is but for the number of its routine. -/
def Parameter.declared (p : Parameter) : String × String := (p.name, p.default)

/-- The parameters of a file that was found. -/
def SourceFile.parameters (f : SourceFile) : List Parameter := f.routines.flatMap Routine.parameters

/-- A scan of the script at `path` prints the parameters `ps`. -/
def Session.PrintsScript (s : Session) (path : String) (ps : List Parameter) : Prop :=
  ∀ m format, (scanFile m path format).result s =
    (.ok (), ⟨s.files, s.printed ++ [.text (writeParameters format ps)]⟩)

/-- The path of what lies below a directory. -/
def FilePath.below (dir : String) (names : List String) : String := dir ++ "/" ++ join names

/-! ## Lemmas: parameters without numbers -/

/-- What tokens declare does not depend on the number. -/
theorem map_declared_declaredBy (id id' : ObjectId) (tokens : List Token) :
    (declaredBy id tokens).map Parameter.declared =
      (declaredBy id' tokens).map Parameter.declared := by
  unfold declaredBy
  rw [List.map_filterMap, List.map_filterMap]
  refine List.filterMap_congr fun ts _ => ?_
  cases ts with
  | nil => rfl
  | cons t ts =>
    rw [declaredByFirst?, declaredByFirst?]
    split <;> rfl

theorem map_declared_placedAt (r : Routine) (path : String) (index : Nat) :
    (r.placedAt path index).parameters.map Parameter.declared =
      r.parameters.map Parameter.declared := by
  show (scanTokens _ _).parameters.map _ = (scanTokens _ _).parameters.map _
  rw [parameters_scanTokens, parameters_scanTokens]
  exact map_declared_declaredBy ..

/-- The parameters of a script under two paths have the same names and defaults, in the same
order. -/
theorem map_declared_routinesOfScript (path path' script : String) :
    ((routinesOfScript path script).flatMap Routine.parameters).map Parameter.declared =
      ((routinesOfScript path' script).flatMap Routine.parameters).map Parameter.declared := by
  unfold routinesOfScript
  generalize (batches script.toList).zipIdx = xs
  induction xs with
  | nil => rfl
  | cons x xs ih =>
    obtain ⟨batch, index⟩ := x
    rw [List.filterMap_cons, List.filterMap_cons]
    cases hr : routineOfBatch? path index batch with
    | none =>
      have hr' : routineOfBatch? path' index batch = none := by
        cases hr' : routineOfBatch? path' index batch with
        | none => rfl
        | some r => cases hr.symm.trans (routineOfBatch?_placedAt hr')
      simpa only [hr, hr'] using ih
    | some r =>
      simp only [hr, routineOfBatch?_placedAt hr, List.flatMap_cons, List.map_append, ih,
        map_declared_placedAt]

theorem SourceFile.map_declared_parameters (path path' : String) (content : Content) :
    (SourceFile.parameters ⟨path, content⟩).map Parameter.declared =
      (SourceFile.parameters ⟨path', content⟩).map Parameter.declared := by
  unfold parameters routines
  cases content.text? with
  | none => rfl
  | some script => exact map_declared_routinesOfScript ..

/-! ## Lemmas: scans of one file -/

/-- **What a scan of a file prints**: its parameters, under its name. -/
theorem printsScript_of_find {s : Session} {path : String} {loc : List String} {content : Content}
    (hfind : s.files.find path = .ok (loc, .file content)) (htext : content.text?.isSome) :
    s.PrintsScript path
      (SourceFile.parameters ⟨(FilePath.fileName? path).getD path, content⟩) := by
  obtain ⟨script, hscript⟩ := Option.isSome_iff_exists.1 htext
  have hread := FileTree.read_of_find hfind hscript
  intro m format
  have hparameters : parametersOfFile m path s.files =
      .ok (SourceFile.parameters ⟨(FilePath.fileName? path).getD path, content⟩) := by
    rw [parametersOfFile, hread]
    simp only [parametersOfScript, Config.parameters_report, SourceFile.parameters,
      SourceFile.routines, hscript]
  show outcome (scanFile m path format) s = _
  simp [scanFile, outcome_bind, hparameters]

/-- The last part of a path is the name of the file to which it leads. -/
theorem fileName?_of_way {t : FileTree} {path name : String} {loc : List String}
    (h : t.Way path (loc ++ [name])) : FilePath.fileName? path = some name := by
  obtain ⟨-, -, above, last, start, dir, hnames, hidle, hup, -, -, -, hloc⟩ := h
  obtain ⟨-, hlast⟩ := List.append_inj' hloc rfl
  obtain rfl := (List.cons.inj hlast).1
  have hparts : (FilePath.parts path).getLast? = some name := by
    rw [FilePath.parts, hnames, List.filter_append, List.filter_singleton, hidle]
    simp
  rw [FilePath.fileName?, hparts]
  split
  · rename_i heq
    exact absurd (Option.some.inj heq) hup
  · rfl

/-- What shows a name is its path, if it has no backslash. -/
theorem sourcePath_singleton {name : FileName} (h : '\\' ∉ name.shown.toList) :
    sourcePath [name] = name.shown := by
  have hkeep : (FilePath.join [name.shown]).toList.map (fun c => if c = '\\' then '/' else c) =
      name.shown.toList := by
    rw [FilePath.join, String.intercalate_singleton]
    refine (List.map_congr_left fun c hc => ?_).trans (List.map_id' name.shown.toList)
    have hne : c ≠ '\\' := fun heq => h (heq ▸ hc)
    rw [if_neg hne]
  rw [sourcePath, List.map_singleton, hkeep, String.ofList_toList]

/-! ## Lemmas: the files of a directory -/

theorem Node.ne_nil_of_mem_descendants {n : Node} {x : List FileName × Node}
    (h : x ∈ n.descendants) : x.1 ≠ [] := by
  cases n with
  | file => cases h
  | directory entries =>
    obtain ⟨e, -, rfl | ⟨y, -, rfl⟩⟩ := mem_descendants_directory.1 h <;> simp

/-- An entry of a directory is found by its name. -/
theorem Node.lookup_of_mem {entries : List (FileName × Node)}
    (hnodup : (entries.map Prod.fst).Nodup) {e : FileName × Node} (he : e ∈ entries) :
    entries.lookup e.1 = some e.2 := by
  obtain ⟨before, after, rfl⟩ := List.append_of_mem he
  refine List.lookup_eq_some_iff.2 ⟨before, after, rfl, fun p hp => ?_⟩
  rw [List.map_append, List.nodup_append] at hnodup
  obtain ⟨-, -, hne⟩ := hnodup
  exact bne_iff_ne.2 (hne p.1 (List.mem_map_of_mem hp) e.1 (by simp)).symm

/-- What lies below a node is found at its path, if the names on it are texts. -/
theorem Node.IsSound.at?_of_mem {n m : Node} (h : n.IsSound) {names : List String}
    (hm : (names.map .text, m) ∈ n.descendants) : n.at? names = some m := by
  induction h generalizing names with
  | file => cases hm
  | @directory entries hnodup _ _ ih =>
    obtain ⟨e, he, hx⟩ := mem_descendants_directory.1 hm
    have hfound := lookup_of_mem hnodup he
    cases names with
    | nil => rcases hx with hx | ⟨y, -, hx⟩ <;> cases hx
    | cons name names =>
      simp only [List.map_cons, Prod.mk.injEq, List.cons.injEq, List.map_eq_nil_iff] at hx
      rcases hx with ⟨⟨hname, rfl⟩, rfl⟩ | ⟨y, hy, ⟨hname, hnames⟩, rfl⟩
      · rw [at?_cons, Node.entries, hname, hfound]
        rfl
      · rw [at?_cons, Node.entries, hname, hfound]
        exact ih e he (hnames ▸ hy)

namespace FileTree

variable {t : FileTree} {dir : String} {directory names : List String} {content : Content}
  {x : List FileName × Content}

theorem mem_admitted {a : Admission} : x ∈ t.admitted a directory ↔
    x ∈ t.filesBelow directory ∧ a.admits (sourcePath x.1) x.2.size = true := by
  rw [admitted, List.mem_mergeSort, List.mem_filter]

theorem ne_nil_of_mem_filesBelow (hx : x ∈ t.filesBelow directory) : x.1 ≠ [] := by
  obtain ⟨n, -, hmem⟩ := mem_filesBelow.1 hx
  exact Node.ne_nil_of_mem_descendants hmem

/-- Files lie below a directory. -/
theorem isDirectory_of_mem_filesBelow (hx : x ∈ t.filesBelow directory) :
    t.IsDirectory directory := by
  obtain ⟨n, hn, hmem⟩ := mem_filesBelow.1 hx
  refine ⟨n, hn, ?_⟩
  cases n with
  | directory entries => exact ⟨entries, rfl⟩
  | file => cases hmem

theorem IsSound.node?_of_mem (h : t.IsSound)
    (hx : (names.map .text, content) ∈ t.filesBelow directory) :
    t.node? (directory ++ names) = some (.file content) := by
  obtain ⟨n, hn, hmem⟩ := mem_filesBelow.1 hx
  have hroot : t.root.at? directory = some n := hn
  rw [node?, Node.at?_append, hroot, Option.bind_some, (Node.IsSound.of_at? h hn).at?_of_mem hmem]

theorem exists_find_of_directory? (h : t.directory? dir = some directory) :
    ∃ entries, t.find dir = .ok (directory, .directory entries) := by
  unfold directory? at h
  split at h
  · next entries hfind =>
    obtain rfl := Option.some.inj h
    exact ⟨entries, hfind⟩
  · cases h

theorem start_below (t : FileTree) (hne : dir ≠ "") (names : List String) :
    t.start (FilePath.below dir names) = t.start dir := by
  have habsolute : FilePath.isAbsolute (FilePath.below dir names) = FilePath.isAbsolute dir := by
    rw [FilePath.isAbsolute, FilePath.below, String.toList_append, String.toList_append]
    cases hlist : dir.toList with
    | nil => exact absurd (String.toList_eq_nil_iff.1 hlist) hne
    | cons c s => rw [FilePath.isAbsolute, hlist]; rfl
  rw [start, habsolute, start]

theorem zero_not_mem_below (hdir : '\x00' ∉ dir.toList)
    (hnames : ∀ name ∈ names, FilePath.IsPlain name) :
    '\x00' ∉ (FilePath.below dir names).toList := by
  have hjoin : '\x00' ∉ (FilePath.join names).toList := by
    rw [FilePath.join, String.toList_intercalate]
    refine not_mem_intercalate (by decide) fun piece hpiece => ?_
    obtain ⟨name, hname, rfl⟩ := List.mem_map.1 hpiece
    exact (hnames name hname).2.2.2.1
  simp [FilePath.below, hdir, hjoin]

/-- **The path of a directory and the names from there on lead to a file.** -/
theorem find_below (h : t.IsSound) (hdir : t.directory? dir = some directory)
    (hx : (names.map .text, content) ∈ t.filesBelow directory)
    (hnames : ∀ name ∈ names, FilePath.IsPlain name)
    (hlength : (FilePath.below dir names).utf8ByteSize ≤ maxPathLength) :
    t.find (FilePath.below dir names) = .ok (directory ++ names, .file content) := by
  obtain ⟨entries, hfind⟩ := exists_find_of_directory? hdir
  obtain ⟨hzero, -, hne, start, hstart, hleads⟩ := leads_of_find hfind
  have hnode := h.node?_of_mem hx
  have hnil : names ≠ [] := by simpa using ne_nil_of_mem_filesBelow hx
  have hsplit : FilePath.names (FilePath.below dir names) = FilePath.names dir ++ names := by
    rw [FilePath.below, names_append,
      names_join hnil fun name hname => (hnames name hname).leadsDown]
  obtain ⟨above, last, rfl⟩ := (List.eq_nil_or_concat' names).resolve_left hnil
  obtain ⟨hidle, hup, -, -, hlast⟩ := hnames last (by simp)
  rw [← List.append_assoc] at hnode hsplit ⊢
  have habove : t.IsDirectory (directory ++ above) := by
    have hbelow := hnode
    rw [node?, Node.at?_append_singleton] at hbelow
    obtain ⟨n, hn, hlookup⟩ := Option.bind_eq_some_iff.1 hbelow
    exact ⟨n, hn, Node.isDirectory_of_lookup hlookup⟩
  have hleads' : t.Leads start (FilePath.names dir ++ above) (directory ++ above) :=
    hleads.append (.of_plain (fun name hname => hnames name (by simp [hname])) habove)
  rw [← t.start_below hne (above ++ [last])] at hstart
  exact find_of_way ⟨zero_not_mem_below hzero hnames, hlength, FilePath.names dir ++ above, last,
    start, directory ++ above, hsplit, hidle, hup, hlast, hstart, hleads', rfl⟩ hnode

end FileTree

/-- The files of a directory that are scanned. -/
theorem exists_of_sourceFiles {dir : String} {c : Config} {t : FileTree} {files : List SourceFile}
    (h : sourceFiles dir c t = .ok files) :
    ∃ directory a, t.directory? dir = some directory ∧ Admission.ofConfig c = .ok a ∧
      files = (t.admitted a directory).map SourceFile.ofNames := by
  cases hdir : t.directory? dir with
  | none =>
    rw [sourceFiles, hdir] at h
    cases h
  | some directory =>
    cases ha : Admission.ofConfig c with
    | error e =>
      rw [sourceFiles, hdir, ha] at h
      cases h
    | ok a =>
      rw [sourceFiles_eq hdir ha] at h
      exact ⟨directory, a, rfl, rfl, (Except.ok.inj h).symm⟩

/-- **What a scan of a directory reports** are the parameters of its files that are text, file by
file. -/
theorem parameters_of_sourceFiles (xs : List (List FileName × Content)) :
    (Report.sequential (routinesOfFiles (xs.map SourceFile.ofNames))).parameters =
      (xs.filter fun x => x.2.text?.isSome).flatMap fun x =>
        (SourceFile.ofNames x).parameters := by
  show (routinesOfFiles _).flatMap Routine.parameters = _
  induction xs with
  | nil => rfl
  | cons x xs ih =>
    have hcons : routinesOfFiles ((x :: xs).map SourceFile.ofNames) =
        (SourceFile.ofNames x).routines ++ routinesOfFiles (xs.map SourceFile.ofNames) := rfl
    rw [hcons, List.flatMap_append, ih, List.filter_cons]
    split
    · rfl
    · rename_i htext
      have hnone : (SourceFile.ofNames x).routines = [] := by
        rw [Option.not_isSome_iff_eq_none] at htext
        rw [SourceFile.routines, SourceFile.ofNames, htext]
      rw [hnone]
      rfl

/-- The text of a file has the parameters that a scan of the directory finds in it, but for their
numbers, whatever name it is known by; and with these under its own name, if it lies directly in the
directory and its name shows no backslash. -/
theorem parametersOfScript_of_text {x : List FileName × Content} {script : String}
    (hscript : x.2.text? = some script) (m : Machine) :
    (∀ name, (parametersOfScript m name script).map Parameter.declared =
        (SourceFile.ofNames x).parameters.map Parameter.declared) ∧
      ∀ name, x.1 = [name] → '\\' ∉ name.shown.toList →
        parametersOfScript m name.shown script = (SourceFile.ofNames x).parameters := by
  have hparameters : (SourceFile.ofNames x).parameters =
      (routinesOfScript (sourcePath x.1) script).flatMap Routine.parameters := by
    rw [SourceFile.parameters, SourceFile.routines, SourceFile.ofNames, hscript]
  refine ⟨fun name => ?_, fun name hname hslash => ?_⟩
  · rw [parametersOfScript, Config.parameters_report, hparameters]
    exact map_declared_routinesOfScript ..
  · rw [parametersOfScript, Config.parameters_report, hparameters, hname,
      sourcePath_singleton hslash]

/-- **A file that is scanned alone** has the parameters that a scan of the directory finds in it,
but for their numbers, and with these if it lies directly there and has no backslash in its
name. -/
theorem exists_printsScript {s : Session} {path : String} {directory names : List String}
    {content : Content} (hx : (names.map .text, content) ∈ s.files.filesBelow directory)
    (htext : content.text?.isSome)
    (hfind : s.files.find path = .ok (directory ++ names, .file content)) :
    ∃ ps, s.PrintsScript path ps ∧
      ps.map Parameter.declared =
        (SourceFile.ofNames (names.map .text, content)).parameters.map Parameter.declared ∧
      ∀ name, names = [name] → '\\' ∉ name.toList →
        ps = (SourceFile.ofNames (names.map .text, content)).parameters := by
  refine ⟨_, printsScript_of_find hfind htext, SourceFile.map_declared_parameters _ _ content,
    fun name hname hslash => ?_⟩
  have hdirectory : s.files.root.IsDirectoryAt ([] ++ directory) :=
    FileTree.isDirectory_of_mem_filesBelow hx
  obtain ⟨hway, -⟩ := FileTree.way_of_find hdirectory.of_append hfind
  subst hname
  have hpath : sourcePath [.text name] = name := sourcePath_singleton hslash
  rw [SourceFile.ofNames, fileName?_of_way hway, Option.getD_some]
  exact congrArg (fun path => SourceFile.parameters ⟨path, content⟩) hpath.symm

/-! ## Top theorem (proved from the lemmas above) -/

/-- **A scan of a directory and scans of its files agree.** The scan reports the parameters of the
admitted files that are text, in the order of their paths, and each of them has the same ones when
it is scanned alone, but for their numbers. Where the names on the way to it are texts, a path leads
to it, and a scan of that prints them. -/
theorem parameters_of_scanDirectory {m : Machine} {dir : String} {into : Option String}
    {format : OutputFormat} {c : Config} {s s₁ : Session} {report : Report}
    (hscan : (scanDirectory m dir into format c).result s = (.ok report, s₁)) :
    ∃ directory a, s.files.directory? dir = some directory ∧ Admission.ofConfig c = .ok a ∧
      let files := s.files.admitted a directory
      sourceFiles dir c s.files = .ok (files.map SourceFile.ofNames) ∧
      report.parameters = (files.filter fun x => x.2.text?.isSome).flatMap
        (fun x => (SourceFile.ofNames x).parameters) ∧
      ∀ x ∈ files, x.2.text?.isSome →
        (∀ script, x.2.text? = some script → ∀ m',
          (∀ name, (parametersOfScript m' name script).map Parameter.declared =
            (SourceFile.ofNames x).parameters.map Parameter.declared) ∧
          ∀ name, x.1 = [name] → '\\' ∉ name.shown.toList →
            parametersOfScript m' name.shown script = (SourceFile.ofNames x).parameters) ∧
        ∀ names : List String, x.1 = names.map .text →
          (∀ path, s.files.find path = .ok (directory ++ names, .file x.2) →
            ∃ ps, s.PrintsScript path ps ∧
              ps.map Parameter.declared =
                (SourceFile.ofNames x).parameters.map Parameter.declared ∧
              ∀ name, names = [name] → '\\' ∉ name.toList →
                ps = (SourceFile.ofNames x).parameters) ∧
          (s.files.IsSound → (∀ name ∈ names, FilePath.IsPlain name) →
            (FilePath.below dir names).utf8ByteSize ≤ FileTree.maxPathLength →
              s.files.find (FilePath.below dir names) = .ok (directory ++ names, .file x.2)) := by
  obtain ⟨files, hfiles, rfl⟩ := report_of_scanDirectory hscan
  obtain ⟨directory, a, hdir, ha, rfl⟩ := exists_of_sourceFiles hfiles
  refine ⟨directory, a, hdir, ha, hfiles, parameters_of_sourceFiles _, fun x hx htext =>
    ⟨fun script hscript m' => parametersOfScript_of_text hscript m', ?_⟩⟩
  have hbelow := (FileTree.mem_admitted.1 hx).1
  intro names hnames
  obtain ⟨p, content⟩ := x
  obtain rfl : p = names.map .text := hnames
  exact ⟨fun path hfind => exists_printsScript hbelow htext hfind, fun hsound hnames hlength =>
    FileTree.find_below hsound hdir hbelow hnames hlength⟩

/-- A script in a directory, a file that is no text, and a script one directory below. -/
def mixedTree : FileTree where
  root := .directory [("sql", .directory [
    ("a.sql", .file (.bytes "create proc p @a int = 1 as begin end".toUTF8)),
    ("b.sql", .file (.bytes ⟨#[0xFF]⟩)),
    ("c", .directory [("d.sql", .file (.bytes "create proc q @b int as begin end".toUTF8))])])]
  home := []

theorem isSound_mixedTree : mixedTree.IsSound := by
  refine .directory (by decide +kernel) (by decide +kernel) (List.forall_mem_singleton.2 ?_)
  refine .directory (by decide +kernel) (by decide +kernel) ?_
  simp only [List.forall_mem_cons]
  refine ⟨.file _, .file _, .directory (by decide +kernel) (by decide +kernel) ?_, by simp⟩
  exact List.forall_mem_singleton.2 (.file _)

theorem parameters_of_scanDirectory_mixedTree :
    ∃ report s₁ a, (scanDirectory ⟨4, 0⟩ "sql" none .json .standard).result (.start mixedTree) =
        (.ok report, s₁) ∧ Admission.ofConfig .standard = .ok a ∧ mixedTree.IsSound ∧
      report.parameters = ((mixedTree.admitted a ["sql"]).filter fun x => x.2.text?.isSome).flatMap
        (fun x => (SourceFile.ofNames x).parameters) ∧
      (∃ x ∈ mixedTree.admitted a ["sql"], x.1 = ["a.sql"] ∧
        (Session.start mixedTree).PrintsScript "sql/a.sql" (SourceFile.ofNames x).parameters) ∧
      ∃ x ∈ mixedTree.admitted a ["sql"], x.1 = ["c", "d.sql"] ∧
        ∃ ps, (Session.start mixedTree).PrintsScript "sql/c/d.sql" ps ∧
          ps.map Parameter.declared = (SourceFile.ofNames x).parameters.map Parameter.declared := by
  obtain ⟨a, ha⟩ := exists_admission
  have hdir : mixedTree.directory? "sql" = some ["sql"] := rfl
  have hscan := scanDirectory_none (s := .start mixedTree) (sourceFiles_eq hdir ha) ⟨4, 0⟩ .json
  obtain ⟨directory, a', hdir', ha', -, hreport, hfiles⟩ := parameters_of_scanDirectory hscan
  obtain rfl : ["sql"] = directory := Option.some.inj (hdir.symm.trans hdir')
  obtain rfl : a = a' := Except.ok.inj (ha.symm.trans ha')
  have hall : (Admission.ofConfig .standard).toOption.all (fun a =>
      (mixedTree.filesBelow ["sql"]).all fun x => a.admits (sourcePath x.1) x.2.size) = true := by
    decide +kernel
  rw [ha] at hall
  have hmem : ∀ x ∈ mixedTree.filesBelow ["sql"], x ∈ mixedTree.admitted a ["sql"] := fun x hx =>
    FileTree.mem_admitted.2 ⟨hx, List.all_eq_true.1 hall x hx⟩
  refine ⟨_, _, a, hscan, ha, isSound_mixedTree, hreport, ?_, ?_⟩
  · have hx := hmem (["a.sql"], .bytes "create proc p @a int = 1 as begin end".toUTF8)
      List.mem_cons_self
    obtain ⟨halone, -⟩ := (hfiles _ hx rfl).2 ["a.sql"] rfl
    obtain ⟨ps, hprints, -, hsame⟩ := halone "sql/a.sql" rfl
    exact ⟨_, hx, rfl, hsame "a.sql" rfl (by decide) ▸ hprints⟩
  · have hx := hmem (["c", "d.sql"], .bytes "create proc q @b int as begin end".toUTF8)
      (.tail _ (.tail _ (.head _)))
    have hplain : ∀ name ∈ ["c", "d.sql"], FilePath.IsPlain name := by
      unfold FilePath.IsPlain
      decide +kernel
    obtain ⟨halone, hbelow⟩ := (hfiles _ hx rfl).2 ["c", "d.sql"] rfl
    obtain ⟨ps, hprints, hsame, -⟩ :=
      halone "sql/c/d.sql" (hbelow isSound_mixedTree hplain (by decide))
    exact ⟨_, hx, rfl, ps, hprints, hsame⟩

end RoutineParams
