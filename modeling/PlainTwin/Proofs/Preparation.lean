import PlainTwin.Command.Generate
import PlainTwin.Proofs.Directories
import PlainTwin.Proofs.SearchSteps

namespace PlainTwin

abbrev Generate.prepareIn (g : Generate) (t : Tree) :
    Except CommandError (List FilePath) × Tree :=
  (g.prepare : ExceptT CommandError (StateM Tree) (List FilePath)).run t

namespace Preparation

open Directories Success PlainTwin.Tree TreePlaces

def ReadsOnly {α : Type} (x : StateM Tree α) : Prop := ∀ t, (x t).2 = t

section Monad

variable {ε α β : Type}

theorem ReadsOnly.pure (a : α) : ReadsOnly (Pure.pure a) := fun _ => rfl

theorem ReadsOnly.bind {x : StateM Tree α} {f : α → StateM Tree β} (hx : ReadsOnly x)
    (hf : ∀ a, ReadsOnly (f a)) : ReadsOnly (x >>= f) := fun t =>
  (hf (x t).1 (x t).2).trans (hx t)

abbrev Reads (x : ExceptT ε (StateM Tree) α) : Prop := ReadsOnly x.run

theorem Reads.pure (a : α) : Reads (Pure.pure a : ExceptT ε (StateM Tree) α) := ReadsOnly.pure _

theorem Reads.throw (e : ε) : Reads (throw e : ExceptT ε (StateM Tree) α) := ReadsOnly.pure _

theorem Reads.lift {x : StateM Tree α} (hx : ReadsOnly x) :
    Reads (ExceptT.lift x : ExceptT ε (StateM Tree) α) := hx.bind fun _ => .pure _

theorem Reads.bind {x : ExceptT ε (StateM Tree) α} {f : α → ExceptT ε (StateM Tree) β}
    (hx : Reads x) (hf : ∀ a, Reads (f a)) : Reads (x >>= f) := by
  rw [Reads, ExceptT.run_bind]
  refine ReadsOnly.bind hx fun r => ?_
  cases r with
  | ok a => exact hf a
  | error e => exact .pure _

theorem Reads.mapM {f : α → ExceptT ε (StateM Tree) β} (hf : ∀ a, Reads (f a)) (l : List α) :
    Reads (l.mapM f) := by
  induction l with
  | nil => exact .pure _
  | cons a l ih =>
    rw [List.mapM_cons]
    exact (hf a).bind fun b => ih.bind fun bs => .pure _

end Monad

theorem composes_reads :
    SearchSteps.Composes fun α (x : ExceptT FileError (StateM Tree) α) => Reads x where
  pure a := .pure a
  bind hx hf := .bind hx hf
  isDir _ := .lift fun _ => rfl
  isPresent _ := .lift fun _ => rfl
  names _ := fun _ => rfl

theorem reads_resolveInput (input : String) :
    Reads (Generate.resolveInput input : ExceptT CommandError (StateM Tree) (List FilePath)) := by
  unfold Generate.resolveInput
  split
  · exact .pure _
  · split
    · exact .throw _
    · refine (Reads.lift (composes_reads.run _)).bind fun r => ?_
      split
      · exact .throw _
      · exact .throw _
      · exact .pure _

def SameFiles (t t' : Tree) : Prop :=
  ∀ l bytes, t.node? l = some (.file bytes) ↔ t'.node? l = some (.file bytes)

def KeepsFiles {α : Type} (x : StateM Tree α) : Prop := ∀ t, SameFiles t (x t).2

section Directories

variable {α β : Type}

theorem ReadsOnly.keepsFiles {x : StateM Tree α} (h : ReadsOnly x) : KeepsFiles x :=
  fun t l bytes => by rw [h t]

theorem KeepsFiles.pure (a : α) : KeepsFiles (Pure.pure a) := (ReadsOnly.pure a).keepsFiles

theorem KeepsFiles.bind {x : StateM Tree α} {f : α → StateM Tree β} (hx : KeepsFiles x)
    (hf : ∀ a, KeepsFiles (f a)) : KeepsFiles (x >>= f) := fun t l bytes =>
  (hx t l bytes).trans (hf (x t).1 (x t).2 l bytes)

theorem keepsFiles_makeDir (p : FilePath) :
    KeepsFiles (Files.makeDir p : StateM Tree (Except FileError Unit)) := by
  intro t
  simp only [Files.makeDir, attempt]
  split
  case h_2 => exact fun l bytes => Iff.rfl
  case h_1 t' h =>
    obtain ⟨l, -, h⟩ := bind_eq_ok_iff.mp h
    split at h
    · cases h
    case h_2 hnone =>
      cases h
      have hfree : t.node? l ≠ some .dir := by simp [hnone]
      have hl : l.names ≠ [] := names_ne_nil hfree
      intro k bytes
      rw [node?_insert hl]
      split <;> simp_all

theorem keepsFiles_ensureDir (p : FilePath) :
    KeepsFiles (Files.ensureDir p : StateM Tree (Except FileError Unit)) := by
  refine (keepsFiles_makeDir p).bind fun r => ?_
  split
  · exact .pure _
  · refine KeepsFiles.bind (ReadsOnly.keepsFiles fun _ => rfl) fun d => ?_
    split <;> exact .pure _

theorem keepsFiles_makeDirsUpTo (n : Nat) (p : FilePath) :
    KeepsFiles (Files.makeDirsUpTo n p : StateM Tree (Except FileError Unit)) := by
  induction n generalizing p with
  | zero => exact .pure _
  | succ n ih =>
    unfold Files.makeDirsUpTo
    split
    · exact .pure _
    · refine (keepsFiles_ensureDir p).bind fun r => ?_
      split
      · refine (ih _).bind fun r => ?_
        split
        · exact keepsFiles_ensureDir p
        · exact .pure _
      · exact .pure _

end Directories

theorem keepsFiles_prepare (g : Generate) :
    KeepsFiles (g.prepare : ExceptT CommandError (StateM Tree) (List FilePath)).run := by
  unfold Generate.prepare
  rw [ExceptT.run_bind]
  refine (Reads.mapM reads_resolveInput g.inputs).keepsFiles.bind fun r => ?_
  split
  case h_2 => exact .pure _
  case h_1 found =>
    dsimp only
    split
    · rw [ExceptT.run_bind]
      refine KeepsFiles.bind ?_ fun r => ?_
      · exact (keepsFiles_makeDirsUpTo _ _).bind fun r => .pure _
      · split <;> exact .pure _
    · exact .pure _

def found (inputs : List String) (t : Tree) : Except CommandError (List (List FilePath)) :=
  ((inputs.mapM Generate.resolveInput : ExceptT CommandError (StateM Tree) _).run t).1

theorem prepare_eq (g : Generate) (t : Tree) :
    g.prepareIn t = match found g.inputs t, g.outDir with
      | .error e, _ => (.error e, t)
      | .ok paths, none => (.ok paths.flatten, t)
      | .ok paths, some dir => match makeDirsUpTo (dir.parts.length + 1) dir t with
        | (.ok (), t') => (.ok paths.flatten, t')
        | (.error e, t') => (.error (.noDirectory dir e), t') := by
  have hfound : (g.inputs.mapM Generate.resolveInput : ExceptT CommandError (StateM Tree) _).run t =
      (found g.inputs t, t) := Prod.ext rfl (Reads.mapM reads_resolveInput g.inputs t)
  unfold Generate.prepareIn Generate.prepare
  rw [ExceptT.run_bind, bind_apply, hfound]
  cases found g.inputs t with
  | error e => rfl
  | ok paths =>
    cases g.outDir with
    | none => rfl
    | some dir =>
      have hmade : ((return (← Files.makeDirs dir).mapError (.noDirectory dir) :
          StateM Tree (Except CommandError Unit))) t =
            ((makeDirsUpTo (dir.parts.length + 1) dir t).1.mapError (.noDirectory dir),
              (makeDirsUpTo (dir.parts.length + 1) dir t).2) := rfl
      dsimp only
      rw [ExceptT.run_bind, bind_apply, ExceptT.run_mk, hmade]
      rcases makeDirsUpTo (dir.parts.length + 1) dir t with ⟨(e | ⟨⟩), t'⟩
      · rfl
      · rfl

theorem isDir_of_prepare {g : Generate} {t t₁ : Tree} {inputs : List FilePath}
    (h : g.prepareIn t = (.ok inputs, t₁)) {dir : FilePath} (hdir : g.outDir = some dir) :
    dir.text = "" ∨ t₁.isDir dir = true := by
  rw [prepare_eq, hdir] at h
  cases hfound : found g.inputs t with
  | error e =>
    rw [hfound] at h
    cases h
  | ok paths =>
    rw [hfound] at h
    dsimp only at h
    split at h
    · next hmade =>
      cases h
      exact isDir_of_makeDirsUpTo hmade
    · cases h

theorem prepare_of_isDir {g : Generate} {t : Tree} {paths : List (List FilePath)}
    (hfound : found g.inputs t = .ok paths)
    (hdir : ∀ dir, g.outDir = some dir → dir.text = "" ∨ t.isDir dir = true) :
    g.prepareIn t = (.ok paths.flatten, t) := by
  rw [prepare_eq, hfound]
  cases hout : g.outDir with
  | none => rfl
  | some dir =>
    dsimp only
    rw [makeDirsUpTo_of_isDir (hdir dir hout)]

/-- A preparation that failed fails again, and changes nothing then. -/
theorem prepare_of_error {g : Generate} {t t₁ : Tree} {e : CommandError}
    (h : g.prepareIn t = (.error e, t₁)) : ∃ e', g.prepareIn t₁ = (.error e', t₁) := by
  have hfirst := h
  rw [prepare_eq] at h
  split at h
  · cases h
    exact ⟨e, hfirst⟩
  · cases h
  · next dir hdir =>
    split at h
    · cases h
    · next e₁ t₂ hmade =>
      cases h
      obtain ⟨e₂, he₂⟩ := stuck_of_error hmade
      rw [prepare_eq, hdir]
      cases found g.inputs t₁ with
      | error e' => exact ⟨e', rfl⟩
      | ok paths =>
        dsimp only
        rw [he₂]
        exact ⟨_, rfl⟩

end Preparation

end PlainTwin
