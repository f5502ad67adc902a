import PlainTwin.Proofs.PlainTrip
import PlainTwin.Tag.Check

namespace PlainTwin.StateWrap

open PlainTrip

variable {α : Type}

theorem meets_undefined (s : StateSet) : s.meets (Tri.undefined : Tri α).states = s.undefined := by
  simp [StateSet.meets, Tri.states, Tri.isDefined, Tri.isNull, Tri.isUndefined]

theorem meets_null (s : StateSet) : s.meets (Tri.null : Tri α).states = s.null := by
  simp [StateSet.meets, Tri.states, Tri.isDefined, Tri.isNull, Tri.isUndefined]

theorem meets_defined (s : StateSet) (a : α) : s.meets (Tri.defined a).states = s.defined := by
  simp [StateSet.meets, Tri.states, Tri.isDefined, Tri.isNull, Tri.isUndefined]

/-- A wrap keeps every value in a state that it was chosen for. -/
theorem settleStates_of_meets {s : StateSet} {t : Tri α} {f : α → α} {z : α}
    (ht : s.meets t.states) (hf : ∀ a, t = .defined a → f a = a) :
    settleStates f z s.triWrap t = t := by
  obtain ⟨defined, null, undefined⟩ := s
  cases t with
  | undefined =>
      obtain rfl : undefined = true := (meets_undefined _).symm.trans ht
      cases defined <;> cases null <;> rfl
  | null =>
      obtain rfl : null = true := (meets_null _).symm.trans ht
      cases defined <;> cases undefined <;> rfl
  | defined a =>
      obtain rfl : defined = true := (meets_defined _ a).symm.trans ht
      have ha : Tri.defined (f a) = .defined a := congrArg Tri.defined (hf a rfl)
      cases null <;> cases undefined <;> exact ha

/-- Whatever comes in, a wrap lets out only the states that it was chosen for. -/
theorem meets_settleStates {s : StateSet} (hs : s.isEmpty = false) (f : α → α) (z : α)
    (t : Tri α) : s.meets (settleStates f z s.triWrap t).states := by
  obtain ⟨defined, null, undefined⟩ := s
  cases defined <;> cases null <;> cases undefined <;> cases t <;> first | rfl | cases hs

theorem settleStates_settleStates {f : α → α} (hf : ∀ a, f (f a) = f a) (z : α) (w : Wrap)
    (t : Tri α) : settleStates f z w (settleStates f z w t) = settleStates f z w t := by
  cases w with
  | tri => cases t <;> simp [settleStates, Tri.map, hf]
  | value => simp [settleStates, Tri.getD, Tri.toOption, hf]
  | marker null => rfl
  | markerOption => cases t <;> rfl
  | option null =>
      cases t <;> cases null <;> simp [settleStates, Tri.map, Tri.ofOption, Tri.toOption, hf]

end PlainTwin.StateWrap
