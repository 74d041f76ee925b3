import RoutineParams.Proofs.Holdings

/-!
# What steps ensure

A step that opens a file ensures something after it wherever something else was true before, both
where it succeeds and where it fails, and so do steps one after the other. A file that nobody changes
is opened without a change, and however a file is opened, others come and go beside it only.

    what the stages ensure, opening a file does               (ensures_openContent_of_stages)
    outcome (openContent a (dir ++ [last]) content) t = (r, t') → Touches dir last t t'
                                                                        (touches_openContent)
-/

namespace RoutineParams

open Storage (Fault Image)

namespace Opening

variable {α β : Type} {a : Access} {content : Content} {dir path : List String} {last : String}
  {t t' : FileTree}

/-- From where `P` is true a step leads to where `Q` is true of its answer, or `E` if it fails. -/
def Ensures (P : FileTree → Prop) (o : Opening α) (Q : α → FileTree → Prop)
    (E : FileTree → Prop) : Prop :=
  ∀ t, P t →
    match outcome o t with
    | (.ok a, t') => Q a t'
    | (.error _, t') => E t'

/-! ## Rules -/

section
variable {P : FileTree → Prop} {Q Q' : α → FileTree → Prop} {E E' : FileTree → Prop}

theorem Ensures.of_outcome {o : Opening α} (ho : Ensures P o Q E) (ht : P t) {r : Except Fault α}
    (hr : outcome o t = (r, t')) :
    match r with
    | .ok a => Q a t'
    | .error _ => E t' := by
  have h := ho t ht
  rw [hr] at h
  cases r <;> exact h

theorem Ensures.mono {o : Opening α} (ho : Ensures P o Q E) (hQ : ∀ a t, Q a t → Q' a t)
    (hE : ∀ t, E t → E' t) : Ensures P o Q' E' := by
  intro t ht
  have h := ho t ht
  split
  · rename_i heq
    rw [heq] at h
    exact hQ _ _ h
  · rename_i heq
    rw [heq] at h
    exact hE _ h

theorem ensures_pure {a : α} (h : ∀ t, P t → Q a t) : Ensures P (pure a) Q E := fun t ht => h t ht

theorem ensures_throw {fault : Fault} (h : ∀ t, P t → E t) : Ensures P (throw fault) Q E :=
  fun t ht => h t ht

theorem ensures_modify {f : FileTree → FileTree} {Q : PUnit → FileTree → Prop}
    (h : ∀ t, P t → Q ⟨⟩ (f t)) : Ensures P (modify f) Q E := fun t ht => h t ht

theorem ensures_get {f : FileTree → Opening α} (h : ∀ t, P t → Ensures (· = t) (f t) Q E) :
    Ensures P (get >>= f) Q E := by
  intro t ht
  rw [outcome_bind, outcome_get]
  exact h t ht t rfl

theorem ensures_bind {o : Opening β} {f : β → Opening α} {R : β → FileTree → Prop}
    (ho : Ensures P o R E) (hf : ∀ b, Ensures (R b) (f b) Q E) : Ensures P (o >>= f) Q E := by
  intro t ht
  have h := ho t ht
  rw [outcome_bind]
  split at h
  · rename_i heq
    rw [heq]
    exact hf _ _ h
  · rename_i heq
    rw [heq]
    exact h

theorem ensures_ofExcept {r : Except Fault β} {f : β → Opening α}
    (herror : ∀ fault t, r = .error fault → P t → E t)
    (hok : ∀ b, r = .ok b → Ensures P (f b) Q E) : Ensures P (MonadExcept.ofExcept r >>= f) Q E := by
  intro t ht
  rw [outcome_bind, outcome_ofExcept]
  cases r with
  | ok b => exact hok b rfl t ht
  | error fault => exact herror fault t rfl ht

theorem ensures_tryCatch {o : Opening α} {f : Fault → Opening α} (ho : Ensures P o Q E')
    (hf : ∀ fault, Ensures E' (f fault) Q E) : Ensures P (tryCatch o f) Q E := by
  intro t ht
  have h := ho t ht
  rw [outcome_tryCatch]
  split at h
  · rename_i heq
    rw [heq]
    exact h
  · rename_i heq
    rw [heq]
    exact hf _ _ h

theorem ensures_ite {p : Prop} [Decidable p] {o o' : Opening α} (ho : p → Ensures P o Q E)
    (ho' : ¬p → Ensures P o' Q E) : Ensures P (if p then o else o') Q E := by
  split
  · exact ho ‹_›
  · exact ho' ‹_›

end

/-- **What opening a file ensures**, by what its stages do. -/
theorem ensures_openContent_of_stages (hfixed : a.isFixed = false) {P E F : FileTree → Prop}
    {P₁ : Content → FileTree → Prop} {U : Content → Bool → FileTree → Prop}
    {V : Bool → Content → FileTree → Prop} {R Q : Connection → FileTree → Prop}
    (hroll : Ensures P (rollBack a path content) P₁ E)
    (hlog : ∀ content, Ensures (P₁ content) (findLog a path content.isBlank) (U content) E)
    (hrefuse : ∀ content hasLog t, U content hasLog t → E t)
    (hcatch : ∀ content, Ensures (U content true) (catchUp a path content) (V true) E)
    (hnone : ∀ content t, U content false t → V false content t)
    (hopen : ∀ hasLog usesLog content,
      Ensures (V hasLog content) (openWith a (hasLog || usesLog) path content) R F)
    (hclose : ∀ c t, R c t → Q c t ∧ Q c (closeLog a path t))
    (hcloseError : ∀ t, F t → E t ∧ E (closeLog a path t)) :
    Ensures P (openContent a path content) Q E := by
  unfold openContent
  extract_lets rolled
  have hrolled : ∀ content, Ensures (P₁ content) (rolled content) Q E := by
    intro content
    unfold rolled
    extract_lets found
    rw [if_neg (by simp [hfixed])]
    refine ensures_bind (hlog content) fun hasLog => ?_
    unfold found
    extract_lets usesLog close caughtUp allowed
    have husesLog : usesLog = (hasLog || isLogged content) := by simp [usesLog, hfixed]
    have hcaughtUp : ∀ content', Ensures (V hasLog content') (caughtUp content') Q E := by
      intro content'
      have hopen := hopen hasLog (isLogged content) content'
      rw [← husesLog] at hopen
      refine ensures_bind (ensures_tryCatch hopen fun fault => ?_) fun c => ?_
      · refine ensures_bind (R := fun _ => E) (ensures_modify fun t ht => ?_) fun _ =>
          ensures_throw fun t ht => ht
        obtain ⟨hsame, hclosed⟩ := hcloseError t ht
        split
        · exact hclosed
        · exact hsame
      · refine ensures_bind (R := fun _ => Q c) (ensures_modify fun t ht => ?_) fun _ =>
          ensures_pure fun t ht => ht
        obtain ⟨hsame, hclosed⟩ := hclose c t ht
        split
        · exact hclosed
        · exact hsame
    refine ensures_get fun t ht => ensures_ite (fun _ => ?_) fun _ => ?_
    · exact fun u hu => hu ▸ hrefuse _ _ _ ht
    · cases hasLog with
      | true => exact ensures_bind (R := V true) (fun u hu => hcatch content u (hu ▸ ht)) hcaughtUp
      | false => exact fun u hu => hcaughtUp content u (hnone _ _ (hu ▸ ht))
  rw [if_neg (by simp [hfixed])]
  exact ensures_bind hroll hrolled

/-! ## Files that nobody changes -/

/-- A step that leaves all files as they are. -/
def IsIdle (o : Opening α) : Prop := ∀ t, Ensures (· = t) o (fun _ u => u = t) (· = t)

theorem IsIdle.files {o : Opening α} (ho : IsIdle o) {r : Except Fault α}
    (hr : outcome o t = (r, t')) : t' = t := by
  have h := (ho t).of_outcome rfl hr
  cases r <;> exact h

theorem isIdle_prepare {write : Except Fault Unit} {fault : Fault} (hwrite : write = .error fault)
    (im : Image) : IsIdle (prepare path write im) := by
  subst hwrite
  rintro t _ rfl
  obtain ⟨hsame, -⟩ := Image.isIdleFor_prepare fault (.ok ⟨⟩) im
  generalize hprepared : outcome (Image.prepare (.error fault)) im = x at hsame
  obtain ⟨result, prepared⟩ := x
  obtain rfl : prepared = im := hsame
  have hrun : (ExceptT.run (Image.prepare (.error fault))).run prepared = _ := hprepared
  rw [prepare, hrun]
  cases result <;> simp

theorem isIdle_openWith (hfixed : a.isFixed = true) : IsIdle (openWith a false path content) := by
  intro t
  unfold openWith
  refine ensures_ofExcept (fun fault u _ hu => hu) fun found hfind => ?_
  extract_lets isFrozen canWrite switches logs rest switched
  have hcan : canWrite = false := by simp [canWrite, hfixed]
  rw [if_neg (by simp [switches, hfixed])]
  refine ensures_get fun u hu => ?_
  extract_lets isStuck canWrite' done
  have hcan' : canWrite' = false := by simp [canWrite', hcan]
  have hdone : ∀ file, Ensures (· = t) (done file) (fun _ u => u = t) (· = t) := by
    intro file
    unfold done
    rw [if_neg (by simp [hcan'])]
    exact ensures_pure fun u hu => hu
  subst hu
  cases found with
  | ready file => exact hdone _
  | pages im isFrozen =>
    exact ensures_bind (isIdle_prepare (if_pos (by simp [hcan'])) _ u) hdone

/-- **A file that nobody changes** is opened without a change. -/
theorem isIdle_openContent (hfixed : a.isFixed = true) : IsIdle (openContent a path content) := by
  rintro _ t rfl
  generalize hout : outcome (openWith a false path content) t = x
  obtain ⟨r, t'⟩ := x
  obtain rfl := (isIdle_openWith hfixed).files hout
  cases r <;> simp [openContent, outcome_bind, outcome_tryCatch, hfixed, hout, Except.map]

/-! ## Files elsewhere -/

/-- Steps that change the file and those beside it only add up. -/
theorem ensures_touches {o : Opening α} (ho : Confined false dir last o)
    (hnot : ¬t.IsDirectory (dir ++ [last])) :
    Ensures (Touches dir last t) o (fun _ => Touches dir last t) (Touches dir last t) := by
  intro u hu
  have h := hu.trans (.of_alters (ho u) (hu.not_isDirectory hnot))
  split
  · rename_i heq
    rwa [heq] at h
  · rename_i heq
    rwa [heq] at h

theorem touches_eraseBeside (t : FileTree) (c : Companion) :
    Touches dir last t (t.eraseBeside (dir ++ [last]) c) := by
  unfold FileTree.eraseBeside
  split
  · exact .refl
  · rename_i hnot
    rw [FileTree.beside_eq_directory_iff] at hnot
    rw [Companion.path_append] at hnot ⊢
    exact .erase .refl (c.isOwn_append last) hnot

theorem touches_putBeside {c : Companion} (hnot : ¬t.IsDirectory (c.path (dir ++ [last])))
    (content : Content) : Touches dir last t (t.put (c.path (dir ++ [last])) (.file content)) := by
  rw [Companion.path_append] at hnot ⊢
  exact .put content .refl (c.isOwn_append last) hnot

theorem touches_closeLog (a : Access) (t : FileTree) :
    Touches dir last t (closeLog a (dir ++ [last]) t) := by
  unfold closeLog
  extract_lets blank kept
  have hkept : Touches dir last t kept := by
    unfold kept
    split
    · rename_i hnothing
      refine touches_putBeside ?_ _
      rw [← FileTree.beside_eq_directory_iff, hnothing]
      simp
    · exact .refl
  split
  · exact hkept
  rename_i hindex
  rw [FileTree.beside_eq_directory_iff, Companion.path_append] at hindex
  split
  · exact (touches_eraseBeside t .log).trans (touches_eraseBeside _ .logIndex)
  · refine hkept.trans (touches_putBeside ?_ _)
    rw [Companion.path_append]
    exact hkept.not_isDirectory hindex

/-- **However a file is opened**, files come and go beside it only. -/
theorem touches_openContent (hnot : ¬t.IsDirectory (dir ++ [last])) {r : Except Fault Connection}
    (hout : outcome (openContent a (dir ++ [last]) content) t = (r, t')) :
    Touches dir last t t' := by
  cases hfixed : a.isFixed with
  | true =>
    rw [(isIdle_openContent hfixed).files hout]
    exact .refl
  | false =>
    have hclose : ∀ u, Touches dir last t u →
        Touches dir last t u ∧ Touches dir last t (closeLog a (dir ++ [last]) u) :=
      fun u hu => ⟨hu, hu.trans (touches_closeLog a u)⟩
    have hall : Ensures (Touches dir last t) (openContent a (dir ++ [last]) content)
        (fun _ => Touches dir last t) (Touches dir last t) :=
      ensures_openContent_of_stages hfixed (U := fun _ _ => Touches dir last t)
        (V := fun _ _ => Touches dir last t) (ensures_touches (confined_rollBack _ _) hnot)
        (fun _ => ensures_touches (confined_findLog _ _) hnot) (fun _ _ _ hu => hu)
        (fun _ => ensures_touches (confined_catchUp _ _) hnot) (fun _ _ hu => hu)
        (fun _ _ _ => ensures_touches (confined_openWith _ _ _) hnot) (fun _ => hclose) hclose
    have h := hall.of_outcome .refl hout
    cases r <;> exact h

end Opening

end RoutineParams
