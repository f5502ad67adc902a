import PlainTwin.Proofs.ItemOutput
import PlainTwin.Proofs.OutputFiles
import PlainTwin.Proofs.Resolution

namespace PlainTwin

def Outcome.isFailed : Outcome → Bool
  | failed _ => true
  | _ => false

namespace Accounting

open FileProgram Generate OutputFiles Preparation Resolution TreePlaces Workers

def Makes (bytes : ByteArray) (made : Generated) : Prop :=
  ∃ text, String.fromUTF8? bytes = some text ∧ Generated.ofText? text = some made

/-- What becomes of an input, by what was read of it and what was answered to its writing. The last is
missing if there was nothing to write. -/
inductive Fate (g : Generate) (input : FilePath) : Except FileError ByteArray →
    Option (ByteArray × Except FileError Unit) → Outcome → Prop
  | unreadable (e : FileError) : Fate g input (.error e) none (.failed (.unreadable input e))
  | notText {bytes : ByteArray} (h : String.fromUTF8? bytes = none) :
      Fate g input (.ok bytes) none (.failed (.notText input))
  | malformed {bytes : ByteArray} {text : String} (htext : String.fromUTF8? bytes = some text)
      (h : Generated.ofText? text = none) : Fate g input (.ok bytes) none (.failed .malformed)
  | skipped {bytes : ByteArray} {made : Generated} (h : Makes bytes made)
      (hskipped : made.skipped = true) : Fate g input (.ok bytes) none .skipped
  | nothing {bytes : ByteArray} {made : Generated} (h : Makes bytes made)
      (hskipped : made.skipped = false) (hnone : made.structs = []) :
      Fate g input (.ok bytes) none (.nothing made.errors)
  | generated {bytes : ByteArray} {made : Generated} (h : Makes bytes made)
      (hskipped : made.skipped = false) (hsome : made.structs ≠ []) (r : Except FileError Unit) :
      Fate g input (.ok bytes) (some (made.render.toUTF8, r)) (written g input made r)

variable {g : Generate}

theorem fate_of_work {input : FilePath} {r : Except FileError ByteArray} {o : Outcome}
    (h : work input r = .inl o) : Fate g input r none o := by
  cases r with
  | error e =>
    cases h
    exact .unreadable e
  | ok bytes =>
    simp only [work] at h
    split at h
    case h_1 htext =>
      cases h
      exact .notText htext
    case h_2 text htext =>
      split at h
      case h_1 hmade =>
        cases h
        exact .malformed htext hmade
      case h_2 made hmade =>
        have hmakes : Makes bytes made := ⟨text, htext, hmade⟩
        split at h
        case isTrue hskipped =>
          cases h
          exact .skipped hmakes hskipped
        case isFalse hskipped =>
          split at h
          case isTrue hempty =>
            cases h
            exact .nothing hmakes (by simpa using hskipped) (List.isEmpty_iff.mp hempty)
          case isFalse => cases h

theorem fate_of_made {input : FilePath} {r : Except FileError ByteArray} {made : Generated}
    (h : work input r = .inr made) (r' : Except FileError Unit) :
    Fate g input r (some (made.render.toUTF8, r')) (written g input made r') := by
  obtain ⟨bytes, text, rfl, htext, hmade⟩ := exists_source h
  simp only [work, htext, hmade] at h
  split at h
  case isTrue => cases h
  case isFalse hskipped =>
    split at h
    case isTrue => cases h
    case isFalse hempty =>
      exact .generated ⟨text, htext, hmade⟩ (by simpa using hskipped)
        (fun hnone => hempty (List.isEmpty_iff.mpr hnone)) r'

def Processes (g : Generate) (input : FilePath) (o : Outcome) (log : List Event) : Prop :=
  ∃ r writing rest, Fate g input r writing o ∧ log = ⟨.read input, r⟩ :: rest ∧
    (writing = none → rest = []) ∧ ∀ bytes r', writing = some (bytes, r') →
      (Files.write (g.output input) bytes : FileProgram (Except FileError Unit)).Logs rest r'

theorem processes_of_logs {input : FilePath} {o : Outcome} {log : List Event}
    (h : (g.process input : FileProgram Outcome).Logs log o) : Processes g input o log := by
  rw [process_eq] at h
  obtain ⟨front, r, rest, rfl, hread, h⟩ := logs_bind_iff.mp h
  rw [logs_perform_iff.mp hread]
  split at h
  case h_1 o' hwork =>
    obtain ⟨rfl, rfl⟩ := logs_pure_iff.mp h
    exact ⟨r, none, [], fate_of_work hwork, rfl, fun _ => rfl, by simp⟩
  case h_2 made hwork =>
    rw [laidOut_program, pure_bind] at h
    obtain ⟨front, r', rest, rfl, hwrite, h⟩ := logs_bind_iff.mp h
    obtain ⟨rfl, rfl⟩ := logs_pure_iff.mp h
    refine ⟨r, _, front ++ [], fate_of_made hwork r', rfl, by simp, fun bytes r'' heq => ?_⟩
    cases heq
    rwa [List.append_nil]

inductive Account (g : Generate) : List Event → Report → Prop
  | failed {log : List Event} {e : CommandError} (h : Prepares g log (.error e)) :
      Account g log (.fail e)
  | processed {log : List Event} {inputs : List FilePath} {outcomes : List (FilePath × Outcome)}
      {logs : List (List Event)} (h : Prepares g log (.ok inputs))
      (horder : outcomes.map Prod.fst = inputs)
      (hlogs : List.Forall₂ (fun x => Processes g x.1 x.2) outcomes logs) :
      Account g (log ++ logs.flatten) (report outcomes)

theorem processes_all {inputs : List FilePath} {log : List Event}
    {outcomes : List (FilePath × Outcome)}
    (h : (inputs.mapM fun input => return (input, ← g.process input) :
      FileProgram (List (FilePath × Outcome))).Logs log outcomes) :
    outcomes.map Prod.fst = inputs ∧ ∃ logs : List (List Event), log = logs.flatten ∧
      List.Forall₂ (fun x => Processes g x.1 x.2) outcomes logs := by
  induction inputs generalizing log outcomes with
  | nil =>
    obtain ⟨rfl, rfl⟩ := logs_pure_iff.mp h
    exact ⟨rfl, [], rfl, .nil⟩
  | cons input inputs ih =>
    rw [List.mapM_cons] at h
    obtain ⟨front, x, rest, rfl, hx, h⟩ := logs_bind_iff.mp h
    obtain ⟨middle, o, last, rfl, ho, hpair⟩ := logs_bind_iff.mp hx
    obtain ⟨rfl, rfl⟩ := logs_pure_iff.mp hpair
    obtain ⟨next, others, last, rfl, hothers, h⟩ := logs_bind_iff.mp h
    obtain ⟨rfl, rfl⟩ := logs_pure_iff.mp h
    obtain ⟨horder, logs, rfl, hlogs⟩ := ih hothers
    exact ⟨by rw [List.map_cons, horder], middle :: logs, by simp,
      .cons (processes_of_logs ho) hlogs⟩

theorem account_of_logs {log : List Event} {r : Report}
    (h : (g.run : FileProgram Report).Logs log r) : Account g log r := by
  unfold Generate.run at h
  obtain ⟨front, res, rest, rfl, hprep, h⟩ := logs_bind_iff.mp h
  have hprep := prepares_of_logs hprep
  cases res with
  | error e =>
    obtain ⟨rfl, rfl⟩ := logs_pure_iff.mp h
    rw [List.append_nil]
    exact .failed hprep
  | ok inputs =>
    obtain ⟨middle, outcomes, last, rfl, hall, h⟩ := logs_bind_iff.mp h
    obtain ⟨rfl, rfl⟩ := logs_pure_iff.mp h
    obtain ⟨horder, logs, rfl, hlogs⟩ := processes_all hall
    rw [List.append_nil]
    exact .processed hprep horder hlogs

/-- The failures of a run: an input that failed is one, and so is each error of a struct. -/
def failures (outcomes : List (FilePath × Outcome)) : Nat :=
  outcomes.countP (·.2.isFailed) + (outcomes.flatMap (·.2.errors)).length

theorem failures_cons (x : FilePath × Outcome) (outcomes : List (FilePath × Outcome)) :
    failures (x :: outcomes) = x.2.failures + failures outcomes := by
  obtain ⟨input, o⟩ := x
  have ho : o.failures = (if o.isFailed then 1 else 0) + o.errors.length := by
    cases o <;> simp [Outcome.failures, Outcome.isFailed, Outcome.errors]
  simp only [failures, List.countP_cons, List.flatMap_cons, List.length_append, ho]
  omega

theorem result_eq (outcomes : List (FilePath × Outcome)) : (report outcomes).result =
    if failures outcomes = 0 then .ok () else .error (.failures (failures outcomes)) := by
  have hfold : ∀ n, outcomes.foldl (fun n x => n + x.2.failures) n = n + failures outcomes := by
    induction outcomes with
    | nil => exact fun n => rfl
    | cons x outcomes ih =>
      intro n
      rw [List.foldl_cons, ih, failures_cons, Nat.add_assoc]
  have hsum := hfold 0
  rw [Nat.zero_add] at hsum
  exact congrArg (fun n => if n = 0 then Except.ok () else .error (CommandError.failures n)) hsum

theorem failures_eq_zero_iff (outcomes : List (FilePath × Outcome)) : failures outcomes = 0 ↔
    ∀ x ∈ outcomes, (∀ e, x.2 ≠ .failed e) ∧ x.2.errors = [] := by
  have hone : ∀ o : Outcome, o.failures = 0 ↔ (∀ e, o ≠ .failed e) ∧ o.errors = [] := by
    intro o
    cases o <;> simp [Outcome.failures, Outcome.errors]
  induction outcomes with
  | nil => simp [failures]
  | cons x outcomes ih =>
    rw [failures_cons, Nat.add_eq_zero_iff, hone, List.forall_mem_cons]
    exact and_congr_right fun _ => ih

section Tree

variable {t₁ t₂ : Tree} {inputs : List FilePath} {outcomes : List (FilePath × Outcome)}

theorem eq_of_kind_eq {o o' : Outcome} (h : o.kind = o'.kind) : o = o' ∨
    (∃ input e e', o = .failed (.unreadable input e) ∧ o' = .failed (.unreadable input e')) ∨
    ∃ output e e', o = .failed (.unwritable output e) ∧ o' = .failed (.unwritable output e') := by
  cases o with
  | failed e =>
    cases o' with
    | failed e' => cases e <;> cases e' <;> simp_all [Outcome.kind]
    | written | nothing | skipped => cases e <;> simp [Outcome.kind] at h
  | written | nothing | skipped =>
    cases o' with
    | failed e' => cases e' <;> simp [Outcome.kind] at h
    | written | nothing | skipped => exact .inl h

/-- What becomes of an input at a tree that others work at too. It is read as it was, what it gives
is written, and only where no file can stand is it not. -/
def Settles (g : Generate) (t₁ t₂ : Tree) (input : FilePath) (o : Outcome) : Prop :=
  ∃ r writing, Fate g input r writing o ∧
    (∀ bytes, r = .ok bytes ↔ t₁.read input = .ok bytes) ∧
    (∀ bytes, writing = some (bytes, .ok ()) → t₂.read (g.output input) = .ok bytes) ∧
    ∀ bytes e l, writing = some (bytes, .error e) → t₁.locate (g.output input) = .ok l →
      t₁.node? l = some .dir

theorem settles_of_mem (h : Result g t₁ inputs outcomes t₂) {input : FilePath} {o : Outcome}
    (hmem : (input, o) ∈ outcomes) : Settles g t₁ t₂ input o := by
  obtain ⟨hinput, hkind⟩ : input ∈ inputs ∧ o.kind = (g.alone t₁ input).kind := by
    have hmem : (input, o.kind) ∈ inputs.map fun i => (i, (g.alone t₁ i).kind) := by
      rw [← h.outcomes]
      exact List.mem_map.mpr ⟨_, hmem, rfl⟩
    obtain ⟨i, hi, heq⟩ := List.mem_map.mp hmem
    obtain ⟨rfl, hk⟩ := Prod.mk.inj heq
    exact ⟨hi, hk.symm⟩
  cases hwork : work input (t₁.read input) with
  | inl o' =>
    have halone : g.alone t₁ input = o' := by rw [alone_eq, hwork]
    have hfate : Fate g input (t₁.read input) none o' := fate_of_work hwork
    rw [halone] at hkind
    -- Another error can be reported than alone, but only where the reading fails there too.
    obtain rfl | ⟨i, e, e', rfl, rfl⟩ | ⟨p, e, e', rfl, rfl⟩ := eq_of_kind_eq hkind
    · exact ⟨_, none, hfate, fun bytes => Iff.rfl, by simp, by simp⟩
    · generalize hr : t₁.read input = r at hfate
      cases hfate
      exact ⟨_, none, .unreadable e, by simp [hr], by simp, by simp⟩
    · generalize t₁.read input = r at hfate
      cases hfate
  | inr made =>
    by_cases hplace : ∃ l, Writes g t₁ input made l
    · obtain ⟨l, hw⟩ := hplace
      have ho : o = .written (g.output input) made.structs made.errors :=
        eq_of_kind_eq_written (hkind.trans (congrArg Outcome.kind hw.alone_eq))
      subst ho
      refine ⟨_, _, fate_of_made hwork (.ok ()), fun bytes => Iff.rfl, fun bytes heq => ?_, by simp⟩
      cases heq
      exact read_eq_ok_iff.mpr
        ⟨l, (locate_eq_ok_iff h.dirs).mp hw.place, h.output input hinput made l hw⟩
    · rw [← kind_of_refusal hwork hplace .missing] at hkind
      obtain ⟨e, rfl⟩ : ∃ e, o = written g input made (.error e) := by
        obtain rfl | ⟨i, e, e', -, heq⟩ | ⟨p, e, e', rfl, heq⟩ := eq_of_kind_eq hkind
        · exact ⟨_, rfl⟩
        · cases heq
        · cases heq
          exact ⟨e, rfl⟩
      refine ⟨_, _, fate_of_made hwork (.error e), fun bytes => Iff.rfl, by simp,
        fun bytes e' l _ hl => ?_⟩
      by_contra hfree
      exact hplace ⟨l, hwork, hl, hfree⟩

theorem prepareIn_of_found {t : Tree} {paths : List (List FilePath)}
    (hfound : found g.inputs t = .ok paths)
    (hdir : ∀ dir, g.outDir = some dir →
      (Files.makeDirs dir : StateM Tree (Except FileError Unit)) t = (.ok (), t₁))
    (hnone : g.outDir = none → t₁ = t) : g.prepareIn t = (.ok paths.flatten, t₁) := by
  rw [prepare_eq, hfound]
  cases hout : g.outDir with
  | none => rw [hnone hout]
  | some dir =>
    have hmade : Directories.makeDirsUpTo (dir.parts.length + 1) dir t = (.ok (), t₁) := hdir dir hout
    dsimp only
    rw [hmade]

theorem runIn_of_error {t : Tree} {e : CommandError} (h : found g.inputs t = .error e) :
    g.runIn t = (.fail e, t) := by
  rw [runIn_eq, prepare_eq, h]

end Tree

/-- Whatever the system answers, a run first looks for all its inputs, and ends there without a change
if one cannot be resolved. Otherwise each input is processed for itself, also when workers take turns
at one tree, and the report counts the inputs that failed and the errors of the structs in the
others. -/
theorem account_of_run (g : Generate) :
    (∀ log r, (g.run : FileProgram Report).Logs log r → Account g log r) ∧
    (∀ t e, found g.inputs t = .error e → (g.run : StateM Tree Report).run t = (.fail e, t)) ∧
    (∀ t t₁ paths, found g.inputs t = .ok paths →
      (∀ dir, g.outDir = some dir →
        (Files.makeDirs dir : StateM Tree (Except FileError Unit)) t = (.ok (), t₁)) →
      (g.outDir = none → t₁ = t) → g.Separate t₁ paths.flatten →
      (∃ outcomes t₂, g.Ends t₁ paths.flatten outcomes t₂ ∧
        (g.run : StateM Tree Report).run t = (report outcomes, t₂)) ∧
      ∀ outcomes t₂, g.Ends t₁ paths.flatten outcomes t₂ →
        outcomes.map Prod.fst = paths.flatten ∧ ∀ x ∈ outcomes, Settles g t₁ t₂ x.1 x.2) ∧
    ∀ outcomes, ((report outcomes).result = .ok () ↔
        ∀ x ∈ outcomes, (∀ e, x.2 ≠ .failed e) ∧ x.2.errors = []) ∧
      ∀ e, (report outcomes).result = .error e → e = .failures (failures outcomes) := by
  refine ⟨fun log r h => account_of_logs h, fun t e h => runIn_of_error h,
    fun t t₁ paths hfound hdir hnone hsep => ⟨run_eq (prepareIn_of_found hfound hdir hnone),
      fun outcomes t₂ hends => ?_⟩, fun outcomes => ⟨?_, fun e h => ?_⟩⟩
  · have hresult := result_of_ends hsep hends
    exact ⟨order_of_result hresult, fun x hx => settles_of_mem hresult hx⟩
  · rw [result_eq, ← failures_eq_zero_iff]
    split <;> simp_all
  · rw [result_eq] at h
    split at h
    · cases h
    · cases h
      rfl

def sources : Tree := ⟨[
  (⟨.above 0, ["a.rs"]⟩, .file ItemOutput.mixed.toUTF8),
  (⟨.above 0, ["gen.rs"]⟩, .file Generated.header.toUTF8)]⟩

def several : Generate := { inputs := ["a.rs", "gen.rs", "no.rs"], noLayout := true }

theorem separate_several : several.Separate sources [⟨"a.rs"⟩, ⟨"gen.rs"⟩, ⟨"no.rs"⟩] :=
  separate_of_places (by decide +kernel)

def mixedOutcomes : List (FilePath × Outcome) :=
  [(⟨"a.rs"⟩, .written ⟨"a_plain.rs"⟩ ["R"] [.plan (.noFieldModified "Q")]),
    (⟨"gen.rs"⟩, .skipped), (⟨"no.rs"⟩, .failed (.unreadable ⟨"no.rs"⟩ .missing))]

theorem account_of_several :
    (∃ t₂, several.Ends sources [⟨"a.rs"⟩, ⟨"gen.rs"⟩, ⟨"no.rs"⟩] mixedOutcomes t₂ ∧
      (∀ x ∈ mixedOutcomes, Settles several sources t₂ x.1 x.2) ∧
      (report mixedOutcomes).result = .error (.failures 2)) ∧
    (({ inputs := ["a.rs", "["] } : Generate).run : StateM Tree Report).run sources =
      (.fail .unresolved, sources) := by
  have hfound : found several.inputs sources = .ok [[⟨"a.rs"⟩], [⟨"gen.rs"⟩], [⟨"no.rs"⟩]] := by rfl
  have houtcomes : (several.inOrder sources [⟨"a.rs"⟩, ⟨"gen.rs"⟩, ⟨"no.rs"⟩]).1 = mixedOutcomes := by
    decide +kernel
  obtain ⟨-, -, htree, htally⟩ := account_of_run several
  have hends := ends_inOrder several [⟨"a.rs"⟩, ⟨"gen.rs"⟩, ⟨"no.rs"⟩] sources
  rw [houtcomes] at hends
  have hall := (htree sources sources _ hfound (fun dir hdir => by cases hdir) (fun _ => rfl)
    separate_several).2 _ _ hends
  refine ⟨⟨_, hends, hall.2, ?_⟩, (account_of_run _).2.1 sources .unresolved (by rfl)⟩
  obtain ⟨hok, herror⟩ := htally mixedOutcomes
  cases hres : (report mixedOutcomes).result with
  | ok u =>
    have hnone := hok.mp hres (⟨"no.rs"⟩, .failed (.unreadable ⟨"no.rs"⟩ .missing))
      (by simp [mixedOutcomes])
    exact absurd rfl (hnone.1 _)
  | error e => rw [herror e hres]; rfl

end Accounting

end PlainTwin
