import PlainTwin.Json.Codec
import PlainTwin.Proofs.ElasticStates

namespace PlainTwin.ElasticRuns

open ElasticStates

variable {α β : Type}

def copied (f : α → α) (e : Elastic α) : Elastic α := ⟨e.inner.map (List.map (Option.map f))⟩

inductive Made : {α : Type} → Elastic α → Prop
  | preset {α : Type} : Made (default : Elastic α)
  | undefined {α : Type} : Made (.undefined : Elastic α)
  | null {α : Type} : Made (.null : Elastic α)
  | ofList {α : Type} (xs : List (Option α)) : Made (.ofList xs)
  | single {α : Type} (a : α) : Made (.single a)
  | many {α : Type} (as : List α) : Made (.many as)
  | ofTri {α : Type} (t : Tri (List (Option α))) : Made (.ofTri t)
  | ofStates {α : Type} (t : Tri (List (Option α))) : Made (.ofStates t)
  | decode {α : Type} {c : Codec α} {r : Reading} {d : Doc} {e : Elastic α}
      (h : (Codec.elastic c).decode r d = .ok e) : Made e

/-- The operations that make an elastic value of another one, perhaps of other elements. -/
inductive Changed : {α β : Type} → Elastic α → Elastic β → Prop
  | map {α β : Type} (f : Tri (List (Option α)) → Tri (List (Option β))) (e : Elastic α) :
      Changed e (e.map f)
  | copied {α : Type} (f : α → α) (e : Elastic α) : Changed e (copied f e)

/-- What a run of the operations can end in. -/
inductive Run : {α : Type} → Elastic α → Prop
  | start {α : Type} {e : Elastic α} (h : Made e) : Run e
  | step {α β : Type} {e : Elastic α} {e' : Elastic β} (h : Run e) (hc : Changed e e') : Run e'

theorem inner_ne_null_of_made {e : Elastic α} (h : Made e) : e.inner ≠ .null := by
  cases h with
  | preset | undefined | null | ofList | single | many => nofun
  | ofTri t => exact Elastic.inner_ofTri_ne_null t
  | ofStates t => cases t <;> nofun
  | decode h =>
      obtain ⟨xs, rfl⟩ := Codec.exists_ofList_of_decode h
      nofun

theorem inner_ne_null_of_changed {e : Elastic α} {e' : Elastic β} (h : Changed e e')
    (he : e.inner ≠ .null) : e'.inner ≠ .null := by
  cases h with
  | map f => exact Elastic.inner_ofTri_ne_null (f e.inner)
  | copied f =>
      obtain ⟨t⟩ := e
      cases t with
      | null => exact absurd rfl he
      | undefined | defined => nofun

theorem inner_ne_null_of_run {e : Elastic α} (h : Run e) : e.inner ≠ .null := by
  induction h with
  | start h => exact inner_ne_null_of_made h
  | step _ hc ih => exact inner_ne_null_of_changed hc ih

theorem isNull_iff (e : Elastic α) : e.isNull = true ↔ e = .null := by
  rw [Elastic.isNull_iff_toList]
  obtain ⟨t⟩ := e
  cases t <;> simp [Elastic.toList, Elastic.null, Tri.getD, Tri.toOption]

theorem count_states {e : Elastic α} (h : e.inner ≠ .null) :
    [e.isUndefined, e.isNull, e.isDefined].count true = 1 := by
  obtain ⟨t⟩ := e
  cases t with
  | undefined => rfl
  | null => exact absurd rfl h
  | defined xs =>
      have hund : (Elastic.mk (.defined xs)).isUndefined = false := rfl
      have hdef : (Elastic.mk (.defined xs)).isDefined = !(Elastic.mk (.defined xs)).isNull := rfl
      rw [hund, hdef]
      cases (Elastic.mk (.defined xs)).isNull <;> rfl

theorem ofTri_toTri {e : Elastic α} (h : e.inner ≠ .null) : Elastic.ofTri e.toTri = e := by
  obtain ⟨t⟩ := e
  cases t with
  | null => exact absurd rfl h
  | undefined | defined => rfl

/-- No run of the operations leaves the inner null, so that every value is in one of three states,
the null form is the only null, and nothing is lost on the way to the inner states and back. -/
theorem states_of_run {e : Elastic α} (h : Run e) :
    e.inner ≠ .null ∧ [e.isUndefined, e.isNull, e.isDefined].count true = 1 ∧
      (e.isNull = true ↔ e = .null) ∧ e.toTri ≠ .null ∧ Elastic.ofTri e.toTri = e := by
  have hinner := inner_ne_null_of_run h
  exact ⟨hinner, count_states hinner, isNull_iff e, hinner, ofTri_toTri hinner⟩

theorem states_of_run_map :
    ((Elastic.single 7).map (fun _ => .null) : Elastic Bool).toTri ≠ .null ∧
      ((Elastic.single 7).map (fun _ => .null) : Elastic Bool).isNull = true := by
  have hrun : Run ((Elastic.single 7).map (fun _ => .null) : Elastic Bool) :=
    .step (.start (.single 7)) (.map _ _)
  obtain ⟨-, -, hnull, htri, -⟩ := states_of_run hrun
  exact ⟨htri, hnull.mpr rfl⟩

/-- Whatever a run ends in comes back from its three states. They come back from their elastic form
but for the sequence of one null, which is taken for null. -/
theorem inverse_of_run :
    (∀ e : Elastic α, Run e → .ofStates e.toStates = e) ∧
    ∀ t : Tri (List (Option α)),
      ((Elastic.ofStates t).toStates = t ↔ t ≠ .defined [none]) ∧
      (t = .defined [none] → (Elastic.ofStates t).toStates = .null) := by
  refine ⟨fun e h => ?_, fun t => ⟨⟨fun h => ?_, toStates_ofStates⟩, fun h => ?_⟩⟩
  · exact ofStates_toStates (inner_ne_null_of_run h)
  · rw [← h]
    exact toStates_ne _
  · subst h
    rfl

theorem inverse_of_run_single :
    (.ofStates (Elastic.ofList [none]).toStates : Elastic Nat) = .ofList [none] ∧
      (Elastic.ofStates (.defined [none]) : Elastic Nat).toStates = .null ∧
      (Elastic.ofStates (.defined []) : Elastic Nat).toStates = .defined [] := by
  obtain ⟨hrun, htri⟩ := inverse_of_run (α := Nat)
  refine ⟨hrun _ (.start (.ofList _)), (htri _).2 rfl, (htri _).1.mpr ?_⟩
  decide

end PlainTwin.ElasticRuns
