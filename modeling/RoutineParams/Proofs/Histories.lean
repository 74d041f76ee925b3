import RoutineParams.Proofs.Agreement
import RoutineParams.Proofs.Totals
import RoutineParams.Proofs.NewFiles

/-!
# Histories of databases

A new database is changed, closed and opened again, in any order. Whatever is done to it, it answers
from the changes alone: its routines are the last ones that were stored for a name with each number,
its parameters the ones that were stored last for it, and what is stored for other names has no say.
That it can be opened again once is enough for it to be opened any time.

    d.HasStore s canLog loc st → d.update c gives a database with st.apply c      (HasStore.update)
    d.HasStore s canLog loc st → d.reopen gives a database with st          (HasStore.reopen)
    a new database that is led through steps answers from their changes           (answers_follow)
-/

namespace RoutineParams

/-- What is done to a database: it is changed, or closed and opened again by its name, which can
demand that its file is there. -/
inductive DatabaseStep where
  | change (c : StoreChange)
  | reopen (mustExist : Bool)

/-- The changes among some steps. -/
def changesOf (steps : List DatabaseStep) : List StoreChange :=
  steps.filterMap fun
    | .change c => some c
    | .reopen _ => none

namespace Database

/-- Leads a database through some steps. -/
def follow (d : Database) : List DatabaseStep → Action Database
  | [] => pure d
  | .change c :: steps => do (← d.update c).follow steps
  | .reopen mustExist :: steps => do (← reopen mustExist d.name).follow steps

/-- The answers of a database after the changes `cs`: the routines of a name that have an at sign,
each the last one with its number, the parameters that were stored last for the name, and the totals
of these, without regard to at signs. -/
structure Answers (d : Database) (s : Session) (cs : List StoreChange) : Prop where
  routines : ∀ name, ∃ rs, (d.routinesOf name).result s = (.ok rs, s) ∧
    rs.Pairwise (·.objectId < ·.objectId) ∧
    ∀ r, r ∈ rs ↔ r.IsLastOf (storedRoutines name cs) ∧ '@' ∈ r.definition.toList
  parameters : ∀ name, ∃ rows, (d.parametersOf name).result s = (.ok rows, s) ∧
    IsTableOf rows name (lastParameters name cs).1 (lastParameters name cs).2
  stats : ∃ stats modules rows, d.stats.result s = (.ok stats, s) ∧ stats.IsTotalOf modules rows ∧
    (∀ name, Latest (modules name) (storedRoutines name cs)) ∧
    ∀ name, IsTableOf (rows name) name (lastParameters name cs).1 (lastParameters name cs).2

variable {d d' : Database} {s s' s₁ : Session} {canLog mustExist : Bool} {loc : List String}
  {st : Store} {name asked : String} {request : DatabaseRequest} {cs : List StoreChange}

/-! ## Lemmas: answers -/

/-- A database that holds what changes leave answers from these. -/
theorem HasStore.answers (h : d.HasStore s canLog loc (Store.after cs)) : d.Answers s cs := by
  refine ⟨fun name => ⟨_, outcome_routinesOf h.store name s, ?_, fun r => ?_⟩, fun name =>
    ⟨_, outcome_parametersOf h.store name s, Store.isTableOf_parametersOf_after cs name⟩,
    _, _, _, outcome_stats h.store s, Store.isTotalOf_stats _, Store.latest_modulesOf_after cs,
    Store.isTableOf_parametersOf_after cs⟩
  · rw [Store.routinesOf_eq]
    exact (Store.latest_modulesOf_after cs name).ascends.filter _
  · rw [Store.routinesOf_eq, List.mem_filter, (Store.latest_modulesOf_after cs name).mem_iff]
    exact and_congr_right fun _ => List.contains_iff_mem

/-! ## Lemmas: steps -/

/-- **A run of steps** leaves what its changes make of the store. -/
theorem HasStore.follow {steps : List DatabaseStep} (h : d.HasStore s canLog loc st)
    (hagain : ∀ mustExist, .reopen mustExist ∈ steps →
      OpensAgain s.files mustExist d.name canLog loc) :
    ∃ d' s', outcome (d.follow steps) s = (.ok d', s') ∧ d'.name = d.name ∧
      d'.HasStore s' canLog loc ((changesOf steps).foldl Store.apply st) ∧
      s.files.Alike s'.files := by
  induction steps generalizing d s st with
  | nil => exact ⟨d, s, rfl, rfl, h, .refl _⟩
  | cons step steps ih =>
    cases step with
    | change c =>
      obtain ⟨d₁, s₁, hupdate, hname, h₁, halike⟩ := h.update c
      obtain ⟨d', s', hfollow, hname', h', halike'⟩ := ih h₁ fun mustExist hmem => by
        rw [hname]
        exact (hagain mustExist (List.mem_cons_of_mem _ hmem)).of_alike halike
      exact ⟨d', s', (outcome_bind_of_ok hupdate).trans hfollow, hname'.trans hname, h',
        halike.trans halike'⟩
    | reopen mustExist =>
      obtain ⟨d₁, hreopen, hname, h₁⟩ := h.reopen (hagain mustExist List.mem_cons_self)
      obtain ⟨d', s', hfollow, hname', h', halike'⟩ := ih h₁ fun mustExist hmem => by
        rw [hname]
        exact hagain mustExist (List.mem_cons_of_mem _ hmem)
      exact ⟨d', s', (outcome_bind_of_ok hreopen).trans hfollow, hname'.trans hname, h', halike'⟩

/-- A database that was led through steps could be opened again before them. -/
theorem HasStore.opensAgain_of_follow {steps : List DatabaseStep}
    (h : d.HasStore s request.canLog loc st)
    (hplaced : IsPlaced s.files d.name request asked loc)
    (hfollow : outcome (d.follow steps) s = (.ok d', s')) (mustExist : Bool)
    (hmem : .reopen mustExist ∈ steps) :
    OpensAgain s.files mustExist d.name request.canLog loc := by
  induction steps generalizing d s st with
  | nil => cases hmem
  | cons step steps ih =>
    cases step with
    | change c =>
      obtain ⟨d₁, s₁, hupdate, hname, h₁, halike⟩ := h.update c
      have hmem : .reopen mustExist ∈ steps := by simpa using hmem
      have hfollow₁ := (outcome_bind_of_ok hupdate).symm.trans hfollow
      have hagain := ih h₁ (hname.symm ▸ hplaced.of_alike halike) hfollow₁ hmem
      exact hname ▸ hagain.of_alike halike.symm
    | reopen mustExist' =>
      obtain ⟨d₁, s₁, hreopen, hfollow₁⟩ := outcome_bind_ok hfollow
      have hagain := hplaced.opensAgain hreopen
      obtain ⟨d₁', hreopen', hname, h₁⟩ := h.reopen hagain
      obtain ⟨hd, rfl⟩ := Prod.mk.inj (hreopen.symm.trans hreopen')
      obtain rfl : d₁ = d₁' := Except.ok.inj hd
      rcases List.mem_cons.1 hmem with heq | hmem
      · cases heq
        exact hagain
      · exact hname ▸ ih h₁ (hname.symm ▸ hplaced) hfollow₁ hmem

/-- **A new database that is led through steps** holds what their changes leave, in its place. -/
theorem hasStore_of_follow (hproper : s.files.IsProper)
    (hconnect : outcome (connect name) s = (.ok d, s₁)) (hpath : d.path = some loc)
    (hnew : s.files.node? loc = none) {steps : List DatabaseStep}
    (hagain : ∀ mustExist, .reopen mustExist ∈ steps →
      ∃ d' s', outcome (reopen mustExist name) s₁ = (.ok d', s')) :
    ∃ request asked d' s', outcome (d.follow steps) s₁ = (.ok d', s') ∧ d'.name = name ∧
      IsPlaced s'.files name request asked loc ∧
      d'.HasStore s' request.canLog loc (Store.after (changesOf steps)) := by
  obtain ⟨rfl, request, asked, hplaced, hd⟩ := new_of_connect hproper hconnect hpath hnew
  obtain ⟨d', s', hfollow, hname, hd', halike⟩ := hd.follow fun mustExist hmem => by
    obtain ⟨_, _, hreopen⟩ := hagain mustExist hmem
    exact hplaced.opensAgain hreopen
  exact ⟨request, asked, d', s', hfollow, hname, hplaced.of_alike halike, hd'⟩

/-! ## A sample -/

/-- A tree with a directory in which nothing lies. -/
def sampleDirectory : FileTree := ⟨.directory [("d", .directory [])], []⟩

/-- A routine is stored twice, and a parameter is, and another database is changed. -/
def sampleSteps : List DatabaseStep :=
  [.change (.routines "N" [⟨2, "q", .function, "@b"⟩, ⟨1, "p", .procedure, "@a"⟩]), .reopen true,
   .change (.routines "N" [⟨2, "r", .procedure, "@c"⟩]),
   .change (.parameters 5 "N" [⟨1, "@a", "1"⟩, ⟨1, "@a", "2"⟩]), .reopen false,
   .change (.parameters 6 "M" [⟨1, "@a", ""⟩])]

theorem connect_sampleDirectory :
    ∃ d s₁, outcome (connect "/d/n.db") (.start sampleDirectory) = (.ok d, s₁) ∧
      d.path = some ["d", "n.db"] := by
  have hname : DatabaseRequest.ofName .create "/d/n.db" = .ok (.ofPath .create "/d/n.db") := by
    decide +kernel
  have hlocation : location? sampleDirectory "/d/n.db" = some (["d"] ++ ["n.db"]) := by
    decide +kernel
  have hlocate : locate .create (["d"] ++ ["n.db"]) sampleDirectory = .ok (.bytes .empty,
      sampleDirectory.put (["d"] ++ ["n.db"]) (.file (.bytes .empty))) := rfl
  obtain ⟨t, hopen⟩ := @Opening.openContent_new_of_isFree true ["d"] "n.db"
    (sampleDirectory.put (["d"] ++ ["n.db"]) (.file (.bytes .empty))) fun c => by
      cases c <;> exact ⟨rfl, by decide⟩
  rw [connect, openIn_eq hname rfl]
  exact ⟨_, ⟨t, []⟩, outcome_openFile_ok_iff.2 ⟨_, _, _, _, hlocation, rfl, hlocate, hopen, rfl,
    rfl⟩, rfl⟩

theorem isProper_sampleDirectory : sampleDirectory.IsProper :=
  ⟨⟨_, rfl, _, rfl⟩, by simp [sampleDirectory]⟩

/-- A new database in the sample directory can be opened again. -/
theorem hasStore_sampleDirectory :
    ∃ d s₁ request asked, outcome (connect "/d/n.db") (.start sampleDirectory) = (.ok d, s₁) ∧
      d.path = some ["d", "n.db"] ∧ d.name = "/d/n.db" ∧
      IsPlaced s₁.files "/d/n.db" request asked ["d", "n.db"] ∧
      d.HasStore s₁ request.canLog ["d", "n.db"] .empty ∧
      ∀ mustExist, OpensAgain s₁.files mustExist "/d/n.db" request.canLog ["d", "n.db"] := by
  obtain ⟨d, s₁, hconnect, hpath⟩ := connect_sampleDirectory
  obtain ⟨hname, request, asked, hplaced, hstore⟩ :=
    new_of_connect isProper_sampleDirectory hconnect hpath rfl
  exact ⟨d, s₁, request, asked, hconnect, hpath, hname, hplaced, hstore, fun mustExist =>
    hplaced.opensAgain_of_way (by decide) hplaced.way hstore.fit.node mustExist⟩

/-! ## Top theorem (proved from the lemmas above) -/

/-- **A database refines two tables with keys.** A new database that is changed, closed and opened
again in any order answers from the changes alone, and what is stored for one name changes no answer
for another. It need only be possible to open it again where that is first done. -/
theorem answers_follow (hproper : s.files.IsProper)
    (hconnect : (connect name).result s = (.ok d, s₁)) (hpath : d.path = some loc)
    (hnew : s.files.node? loc = none) (steps : List DatabaseStep)
    (hagain : ∀ mustExist, .reopen mustExist ∈ steps →
      ∃ d' s', (reopen mustExist name).result s₁ = (.ok d', s')) :
    ∃ d' s', (d.follow steps).result s₁ = (.ok d', s') ∧ d'.Answers s' (changesOf steps) ∧
      ∀ c, ∃ d'' s'', (d'.update c).result s' = (.ok d'', s'') ∧
        ∀ other, c.databaseName ≠ other →
          ((d''.routinesOf other).result s'').1 = ((d'.routinesOf other).result s').1 ∧
          ((d''.parametersOf other).result s'').1 = ((d'.parametersOf other).result s').1 := by
  obtain ⟨request, asked, d', s', hfollow, -, -, h'⟩ :=
    hasStore_of_follow hproper hconnect hpath hnew hagain
  refine ⟨d', s', hfollow, h'.answers, fun c => ?_⟩
  obtain ⟨d'', s'', hupdate, -, h'', -⟩ := h'.update c
  refine ⟨d'', s'', hupdate, fun other hother => ⟨?_, ?_⟩⟩
  · show (outcome (d''.routinesOf other) s'').1 = (outcome (d'.routinesOf other) s').1
    rw [outcome_routinesOf h''.store, outcome_routinesOf h'.store, Store.routinesOf_eq,
      Store.routinesOf_eq, Store.modulesOf_apply_of_ne _ hother]
  · show (outcome (d''.parametersOf other) s'').1 = (outcome (d'.parametersOf other) s').1
    rw [outcome_parametersOf h''.store, outcome_parametersOf h'.store,
      Store.parametersOf_apply_of_ne _ hother]

theorem answers_follow_sample :
    ∃ d s₁, (connect "/d/n.db").result (.start sampleDirectory) = (.ok d, s₁) ∧
      d.path = some ["d", "n.db"] ∧ sampleDirectory.node? ["d", "n.db"] = none ∧
      (∀ mustExist, .reopen mustExist ∈ sampleSteps →
        ∃ d' s', (reopen mustExist "/d/n.db").result s₁ = (.ok d', s')) ∧
      ∃ d' s', (d.follow sampleSteps).result s₁ = (.ok d', s') ∧
        d'.Answers s' (changesOf sampleSteps) := by
  have hnew : sampleDirectory.node? ["d", "n.db"] = none := rfl
  obtain ⟨d, s₁, request, asked, hconnect, hpath, hname, -, hstore, hopens⟩ :=
    hasStore_sampleDirectory
  have hagain : ∀ mustExist, ∃ d' s', (reopen mustExist "/d/n.db").result s₁ = (.ok d', s') := by
    intro mustExist
    obtain ⟨d', hreopen, -⟩ := hstore.reopen (hname ▸ hopens mustExist)
    exact ⟨d', s₁, hname ▸ hreopen⟩
  obtain ⟨d', s', hfollow, hanswers, -⟩ := answers_follow isProper_sampleDirectory hconnect hpath
    hnew sampleSteps fun mustExist _ => hagain mustExist
  exact ⟨d, s₁, hconnect, hpath, hnew, fun mustExist _ => hagain mustExist, d', s', hfollow,
    hanswers⟩

end Database

end RoutineParams
