import PlainTwin.Proofs.Logs
import PlainTwin.Proofs.SearchSteps

namespace PlainTwin

def FileOp.looks : FileOp → Bool
  | isPresent _ | isDir _ | names _ => true
  | _ => false

def Event.refused : Event → Bool
  | ⟨.names _, .error _⟩ => true
  | _ => false

namespace Resolution

open FileProgram Generate SearchSteps

def OnlyLooks (log : List Event) : Prop := ∀ ev ∈ log, ev.op.looks

theorem OnlyLooks.append {log log' : List Event} (h : OnlyLooks log) (h' : OnlyLooks log') :
    OnlyLooks (log ++ log') :=
  List.forall_mem_append.mpr ⟨h, h'⟩

/-- The search looks around and fails just when it is refused something. -/
def Searches (α : Type) (x : ExceptT FileError FileProgram α) : Prop :=
  ∀ log r, x.run.Logs log r →
    OnlyLooks log ∧ ((∃ e, r = .error e) ↔ ∃ ev ∈ log, ev.refused)

section Monad

variable {ε ε' α β : Type}

theorem logs_run_pure {a : α} {log : List Event} {r : Except ε α}
    (h : (pure a : ExceptT ε FileProgram α).run.Logs log r) : log = [] ∧ r = .ok a :=
  logs_pure_iff.mp h

theorem logs_run_throw {e : ε} {log : List Event} {r : Except ε α}
    (h : (throw e : ExceptT ε FileProgram α).run.Logs log r) : log = [] ∧ r = .error e :=
  logs_pure_iff.mp h

theorem logs_run_lift {x : FileProgram α} {log : List Event} {r : Except ε α}
    (h : (ExceptT.lift x : ExceptT ε FileProgram α).run.Logs log r) :
    ∃ a, x.Logs log a ∧ r = .ok a := by
  obtain ⟨front, a, rest, rfl, hx, h⟩ := logs_bind_iff.mp h
  obtain ⟨rfl, rfl⟩ := logs_pure_iff.mp h
  exact ⟨a, by simpa using hx, rfl⟩

theorem logs_run_mapError {x : FileProgram (Except ε α)} {f : ε → ε'} {log : List Event}
    {r : Except ε' α}
    (h : (ExceptT.mk (return (← x).mapError f) : ExceptT ε' FileProgram α).run.Logs log r) :
    ∃ res, x.Logs log res ∧ r = res.mapError f := by
  obtain ⟨front, res, rest, rfl, hx, h⟩ := logs_bind_iff.mp h
  obtain ⟨rfl, rfl⟩ := logs_pure_iff.mp h
  rw [List.append_nil]
  exact ⟨res, hx, rfl⟩

theorem logs_run_bind {x : ExceptT ε FileProgram α} {f : α → ExceptT ε FileProgram β}
    {log : List Event} {r : Except ε β} (h : (x >>= f).run.Logs log r) :
    (∃ e, x.run.Logs log (.error e) ∧ r = .error e) ∨
      ∃ front a rest, log = front ++ rest ∧ x.run.Logs front (.ok a) ∧ (f a).run.Logs rest r := by
  obtain ⟨front, a, rest, rfl, hx, h⟩ := logs_bind_iff.mp h
  cases a with
  | ok a => exact .inr ⟨front, a, rest, rfl, hx, h⟩
  | error e =>
    obtain ⟨rfl, rfl⟩ := logs_pure_iff.mp h
    exact .inl ⟨e, by rw [List.append_nil]; exact hx, rfl⟩

end Monad

theorem composes_searches : Composes Searches where
  pure a log r h := by
    obtain ⟨rfl, rfl⟩ := logs_run_pure h
    simp [OnlyLooks]
  bind := by
    intro α β x f hx hf log r h
    obtain ⟨e, hlog, rfl⟩ | ⟨front, a, rest, rfl, hfront, hrest⟩ := logs_run_bind h
    · simpa using hx _ _ hlog
    · obtain ⟨hlooks, herror⟩ := hx _ _ hfront
      obtain ⟨hlooks', herror'⟩ := hf a _ _ hrest
      refine ⟨hlooks.append hlooks', herror'.trans ?_⟩
      have hno : ¬∃ ev ∈ front, ev.refused := by simpa using herror
      simp only [List.mem_append, or_and_right, exists_or, hno, false_or]
  isDir p log r h := by
    obtain ⟨b, hb, rfl⟩ := logs_run_lift h
    rw [logs_perform_iff.mp hb]
    simp [OnlyLooks, FileOp.looks, Event.refused]
  isPresent p log r h := by
    obtain ⟨b, hb, rfl⟩ := logs_run_lift h
    rw [logs_perform_iff.mp hb]
    simp [OnlyLooks, FileOp.looks, Event.refused]
  names p log r h := by
    rw [logs_perform_iff.mp h]
    cases r <;> simp [OnlyLooks, FileOp.looks, Event.refused]

/-- How one input can be resolved, with what the system was asked for that. -/
inductive Resolves (input : String) : List Event → Except CommandError (List FilePath) → Prop
  | plain (h : PathPattern.isMeant input = false) : Resolves input [] (.ok [⟨input⟩])
  | malformed (h : PathPattern.isMeant input) (hp : PathPattern.ofText? input = none) :
      Resolves input [] (.error .unresolved)
  | unreadable {p : PathPattern} {log : List Event} {e : FileError} (h : PathPattern.isMeant input)
      (hp : PathPattern.ofText? input = some p)
      (hlog : (Search.run p : Search.Results FileProgram).run.Logs log (.error e))
      (hrefused : ∃ ev ∈ log, ev.refused) : Resolves input log (.error .unresolved)
  | unmatched {p : PathPattern} {log : List Event} (h : PathPattern.isMeant input)
      (hp : PathPattern.ofText? input = some p)
      (hlog : (Search.run p : Search.Results FileProgram).run.Logs log (.ok [])) :
      Resolves input log (.error (.unmatched input))
  | matched {p : PathPattern} {log : List Event} {paths : List FilePath}
      (h : PathPattern.isMeant input) (hp : PathPattern.ofText? input = some p)
      (hlog : (Search.run p : Search.Results FileProgram).run.Logs log (.ok paths))
      (hsome : paths ≠ []) (hread : ¬∃ ev ∈ log, ev.refused) : Resolves input log (.ok paths)

inductive ResolvesAll :
    List String → List Event → Except CommandError (List (List FilePath)) → Prop
  | nil : ResolvesAll [] [] (.ok [])
  | failed {input : String} {inputs : List String} {log : List Event} {e : CommandError}
      (h : Resolves input log (.error e)) : ResolvesAll (input :: inputs) log (.error e)
  | cons {input : String} {inputs : List String} {log log' : List Event} {paths : List FilePath}
      {r : Except CommandError (List (List FilePath))} (h : Resolves input log (.ok paths))
      (hs : ResolvesAll inputs log' r) :
      ResolvesAll (input :: inputs) (log ++ log') (r.map (paths :: ·))

theorem resolves_of_logs {input : String} {log : List Event}
    {r : Except CommandError (List FilePath)}
    (h : (resolveInput input : ExceptT CommandError FileProgram (List FilePath)).run.Logs log r) :
    OnlyLooks log ∧ Resolves input log r := by
  have hnone : OnlyLooks [] := List.forall_mem_nil _
  unfold resolveInput at h
  split at h
  case isTrue hplain =>
    obtain ⟨rfl, rfl⟩ := logs_run_pure h
    exact ⟨hnone, .plain (by simpa using hplain)⟩
  case isFalse hmeant =>
    have hmeant : PathPattern.isMeant input := by simpa using hmeant
    split at h
    case h_1 hp =>
      obtain ⟨rfl, rfl⟩ := logs_run_throw h
      exact ⟨hnone, .malformed hmeant hp⟩
    case h_2 p hp =>
      obtain ⟨e, hlift, rfl⟩ | ⟨front, found, rest, rfl, hlift, h⟩ := logs_run_bind h
      · obtain ⟨a, -, hok⟩ := logs_run_lift hlift
        cases hok
      · obtain ⟨a, hlog, hok⟩ := logs_run_lift hlift
        cases hok
        obtain ⟨hlooks, hrefused⟩ := composes_searches.run p _ _ hlog
        split at h
        case h_1 e =>
          obtain ⟨rfl, rfl⟩ := logs_run_throw h
          rw [List.append_nil]
          exact ⟨hlooks, .unreadable hmeant hp hlog (hrefused.mp ⟨e, rfl⟩)⟩
        case h_2 =>
          obtain ⟨rfl, rfl⟩ := logs_run_throw h
          rw [List.append_nil]
          exact ⟨hlooks, .unmatched hmeant hp hlog⟩
        case h_3 paths hsome =>
          obtain ⟨rfl, rfl⟩ := logs_run_pure h
          rw [List.append_nil]
          exact ⟨hlooks, .matched hmeant hp hlog (by simpa using hsome) (by simp [← hrefused])⟩

theorem resolvesAll_of_logs {inputs : List String} {log : List Event}
    {r : Except CommandError (List (List FilePath))}
    (h : (inputs.mapM resolveInput :
      ExceptT CommandError FileProgram (List (List FilePath))).run.Logs log r) :
    OnlyLooks log ∧ ResolvesAll inputs log r := by
  induction inputs generalizing log r with
  | nil =>
    obtain ⟨rfl, rfl⟩ := logs_run_pure h
    exact ⟨List.forall_mem_nil _, .nil⟩
  | cons input inputs ih =>
    rw [List.mapM_cons] at h
    obtain ⟨e, hlog, rfl⟩ | ⟨front, paths, rest, rfl, hfront, h⟩ := logs_run_bind h
    · obtain ⟨hlooks, hr⟩ := resolves_of_logs hlog
      exact ⟨hlooks, .failed hr⟩
    · obtain ⟨hlooks, hr⟩ := resolves_of_logs hfront
      obtain ⟨e, hlog, rfl⟩ | ⟨middle, found, last, rfl, hmiddle, h⟩ := logs_run_bind h
      · obtain ⟨hlooks', hrs⟩ := ih hlog
        exact ⟨hlooks.append hlooks', .cons hr hrs⟩
      · obtain ⟨hlooks', hrs⟩ := ih hmiddle
        obtain ⟨rfl, rfl⟩ := logs_run_pure h
        rw [List.append_nil]
        exact ⟨hlooks.append hlooks', .cons hr hrs⟩

/-- What preparation asks for, and what comes of it. Directories are made only when all inputs are
resolved. -/
inductive Prepares (g : Generate) : List Event → Except CommandError (List FilePath) → Prop
  | unresolved {log : List Event} {e : CommandError} (hlooks : OnlyLooks log)
      (h : ResolvesAll g.inputs log (.error e)) : Prepares g log (.error e)
  | found {log : List Event} {paths : List (List FilePath)} (hlooks : OnlyLooks log)
      (h : ResolvesAll g.inputs log (.ok paths)) (hdir : g.outDir = none) :
      Prepares g log (.ok paths.flatten)
  | made {log log' : List Event} {paths : List (List FilePath)} {dir : FilePath}
      {r : Except FileError Unit} (hlooks : OnlyLooks log)
      (h : ResolvesAll g.inputs log (.ok paths)) (hdir : g.outDir = some dir)
      (hmade : (Files.makeDirs dir : FileProgram (Except FileError Unit)).Logs log' r) :
      Prepares g (log ++ log') ((r.map fun _ => paths.flatten).mapError (.noDirectory dir))

theorem prepares_of_logs {g : Generate} {log : List Event}
    {r : Except CommandError (List FilePath)}
    (h : (g.prepare : ExceptT CommandError FileProgram (List FilePath)).run.Logs log r) :
    Prepares g log r := by
  unfold Generate.prepare at h
  obtain ⟨e, hlog, rfl⟩ | ⟨front, paths, rest, rfl, hfront, h⟩ := logs_run_bind h
  · obtain ⟨hlooks, hall⟩ := resolvesAll_of_logs hlog
    exact .unresolved hlooks hall
  · obtain ⟨hlooks, hall⟩ := resolvesAll_of_logs hfront
    dsimp only at h
    split at h
    case h_1 dir hdir =>
      obtain ⟨e, hfail, rfl⟩ | ⟨front', u, rest', rfl, hdone, hrest⟩ := logs_run_bind h
      · obtain ⟨res, hlog, hres⟩ := logs_run_mapError hfail
        cases res with
        | ok u => cases hres
        | error e' =>
          cases hres
          exact .made hlooks hall hdir hlog
      · obtain ⟨res, hlog, hres⟩ := logs_run_mapError hdone
        cases res with
        | error e' => cases hres
        | ok u' =>
          obtain ⟨rfl, rfl⟩ := logs_run_pure hrest
          rw [List.append_nil]
          exact .made hlooks hall hdir hlog
    case h_2 hdir =>
      obtain ⟨rfl, rfl⟩ := logs_run_pure h
      rw [List.append_nil]
      exact .found hlooks hall hdir

end Resolution

end PlainTwin
