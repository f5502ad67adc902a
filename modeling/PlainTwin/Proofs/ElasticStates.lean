import PlainTwin.Conversion.Primitive

namespace PlainTwin.ElasticStates

variable {α : Type}

theorem isNull_ofList {xs : List (Option α)} (h : xs ≠ [none]) :
    (Elastic.ofList xs).isNull = false := by
  rw [Bool.eq_false_iff]
  intro hn
  exact h ((Elastic.isNull_iff_toList _).mp hn)

theorem toStates_ofList {xs : List (Option α)} (h : xs ≠ [none]) :
    (Elastic.ofList xs).toStates = .defined xs := by
  have hund : (Elastic.ofList xs).isUndefined = false := rfl
  simp [Elastic.toStates, hund, isNull_ofList h, Elastic.toList_ofList]

theorem toStates_ofStates {t : Tri (List (Option α))} (h : t ≠ .defined [none]) :
    (Elastic.ofStates t).toStates = t := by
  cases t with
  | undefined | null => rfl
  | defined xs => exact toStates_ofList (fun hxs => h (congrArg Tri.defined hxs))

theorem ofStates_eq_null_iff {t : Tri (List (Option α))} :
    Elastic.ofStates t = .null ↔ t = .null ∨ t = .defined [none] := by
  cases t <;> simp [Elastic.ofStates, Elastic.undefined, Elastic.null, Elastic.ofList]

theorem toStates_ne (e : Elastic α) : e.toStates ≠ .defined [none] := by
  unfold Elastic.toStates
  split
  · simp
  · split
    · simp
    · next hn => exact fun h => hn ((Elastic.isNull_iff_toList e).mpr (Tri.defined.inj h))

/-- No operation leaves the inner null, and every other value is told by its states. -/
theorem ofStates_toStates {e : Elastic α} (h : e.inner ≠ .null) :
    Elastic.ofStates e.toStates = e := by
  obtain ⟨t⟩ := e
  cases t with
  | undefined => rfl
  | null => exact absurd rfl h
  | defined xs =>
      by_cases hxs : xs = [none]
      · subst hxs
        rfl
      · exact congrArg Elastic.ofStates (toStates_ofList hxs)

end PlainTwin.ElasticStates
