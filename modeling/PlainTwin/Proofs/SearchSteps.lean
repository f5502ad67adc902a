import PlainTwin.Files.Search

namespace PlainTwin.SearchSteps

open Search

variable {m : Type → Type} [Monad m] [Files m]

/-- A property that all questions of a search have and that is kept when programs are put together. -/
structure Composes (Q : (α : Type) → ExceptT FileError m α → Prop) : Prop where
  pure : ∀ {α : Type} (a : α), Q α (Pure.pure a)
  bind : ∀ {α β : Type} {x : ExceptT FileError m α} {f : α → ExceptT FileError m β}, Q α x →
    (∀ a, Q β (f a)) → Q β (x >>= f)
  isDir : ∀ p, Q Bool (isDir p)
  isPresent : ∀ p, Q Bool (isPresent p)
  names : ∀ p, Q (List String) (ExceptT.mk (Files.names p))

namespace Composes

variable {Q : (α : Type) → ExceptT FileError m α → Prop} (hQ : Composes Q)
include hQ

theorem mapM [LawfulMonad m] {α β : Type} {f : α → ExceptT FileError m β} (hf : ∀ a, Q β (f a))
    (l : List α) : Q (List β) (l.mapM f) := by
  induction l with
  | nil => exact hQ.pure _
  | cons a l ih =>
    rw [List.mapM_cons]
    exact hQ.bind (hf a) fun b => hQ.bind ih fun bs => hQ.pure _

theorem collect [LawfulMonad m] {α : Type} {f : α → Results m} (hf : ∀ a, Q _ (f a)) (l : List α) :
    Q _ (collect l f) :=
  hQ.bind (hQ.mapM hf l) fun _ => hQ.pure _

section Level

variable {dirsOnly : Bool} {below : Below m} (hbelow : ∀ parts p, Q _ (below parts p))
include hbelow

theorem goOn (parts : List PartPattern) (p : FilePath) : Q _ (goOn dirsOnly below parts p) := by
  unfold Search.goOn
  split
  · exact hQ.bind (hQ.isDir p) fun _ => hQ.pure _
  · exact hbelow _ _

theorem named (name : String) (parts : List PartPattern) (p : FilePath) :
    Q _ (named dirsOnly below name parts p) := by
  unfold Search.named
  split
  · exact hQ.pure _
  · split
    · exact hQ.goOn hbelow _ _
    · exact hQ.pure _

theorem visit (name : String) (parts : List PartPattern) (p : FilePath) :
    Q _ (visit dirsOnly below name parts p) := by
  unfold Search.visit
  split
  · refine hQ.bind (hQ.isDir p) fun d => ?_
    split
    · have hrest : ∀ self q qs, Q _ (do return self ++ (← below qs q)) :=
        fun self q qs => hQ.bind (hbelow qs q) fun _ => hQ.pure _
      dsimp only
      split
      · exact hQ.bind (hQ.pure _) fun self => hrest self _ _
      · exact hQ.bind (hQ.named hbelow _ _ _) fun self => hrest self _ _
    · exact hQ.named hbelow _ _ _
  · exact hQ.named hbelow _ _ _

theorem step [LawfulMonad m] (parts : List PartPattern) (p : FilePath) :
    Q _ (step dirsOnly below parts p) := by
  unfold Search.step
  split
  · exact hQ.pure _
  · have hrest : ∀ (there : Bool) qs q,
        Q _ (if there then Search.goOn dirsOnly below qs q else return []) := by
      intro there qs q
      split
      · exact hQ.goOn hbelow _ _
      · exact hQ.pure _
    dsimp only
    split
    · exact hQ.bind (hQ.isDir _) fun there => hrest there _ _
    · exact hQ.bind (hQ.isPresent _) fun there => hrest there _ _
  · refine hQ.bind (hQ.isDir _) fun d => ?_
    split
    · exact hQ.pure _
    · refine hQ.bind (hQ.names _) fun names => ?_
      refine hQ.bind (hQ.collect (fun _ => hQ.goOn hbelow _ _) _) fun around => ?_
      exact hQ.bind (hQ.collect (fun _ => hQ.visit hbelow _ _ _) _) fun inside => hQ.pure _

end Level

theorem downTo [LawfulMonad m] (dirsOnly : Bool) (n : Nat) (parts : List PartPattern) (p : FilePath) :
    Q _ (downTo dirsOnly n parts p) := by
  induction n generalizing parts p with
  | zero => exact hQ.pure _
  | succ n ih => exact hQ.step ih parts p

theorem run [LawfulMonad m] (p : PathPattern) : Q _ (run p) := hQ.downTo p.dirsOnly maxDepth p.parts _

end Composes

end PlainTwin.SearchSteps
