import PlainTwin.Proofs.Checking

namespace PlainTwin.Relaxation

open Checking

variable {α : Type} {c d : Constraint} {e : Elastic α}

structure Within (s t : StateSet) : Prop where
  defined : s.defined → t.defined
  null : s.null → t.null
  undefined : s.undefined → t.undefined

def AllowsLength (c : Constraint) (n : Nat) : Prop := ∀ r, c.length = some r → r.allows n

/-- The second constraint asks for no more than the first one. Lengths are counted in 64 bits. One
that leaves the states open does not relax one that names them, since it checks null as a sequence. -/
structure Relaxes (c d : Constraint) : Prop where
  states : Within c.effectiveStates d.effectiveStates
  length : ∀ n ≤ maxLength, AllowsLength c n → AllowsLength d n
  nonnull : d.requiresNonnull → c.requiresNonnull
  named : d.states.isSome ∨ c.states = none

inductive Passes (c : Constraint) (e : Elastic α) : Prop
  | undefined (he : e.isUndefined) (hs : c.effectiveStates.undefined)
  | namedNull (hu : e.isUndefined = false) (he : e.isNull) (hc : c.states.isSome)
      (hs : c.effectiveStates.null)
  | openNull (hu : e.isUndefined = false) (he : e.isNull) (hc : c.states = none)
      (hseq : c.checkSequence e = .ok ())
  | defined (hu : e.isUndefined = false) (he : e.isNull = false) (hs : c.effectiveStates.defined)
      (hseq : c.checkSequence e = .ok ())

theorem checkElastic_eq_ok_iff : c.checkElastic e = .ok () ↔ Passes c e := by
  constructor
  · intro h
    unfold Constraint.checkElastic at h
    cases hu : e.isUndefined with
    | true =>
        cases hs : c.effectiveStates.undefined with
        | true => exact .undefined hu hs
        | false => simp [hu, hs] at h
    | false =>
        cases he : e.isNull with
        | true =>
            cases hc : c.states with
            | none => exact .openNull hu he hc (by simpa [hu, he, hc] using h)
            | some s =>
                cases hs : c.effectiveStates.null with
                | true => exact .namedNull hu he (by simp [hc]) hs
                | false => simp [hu, he, hc, hs] at h
        | false =>
            cases hs : c.effectiveStates.defined with
            | true => exact .defined hu he hs (by simpa [hu, he, hs] using h)
            | false => simp [hu, he, hs] at h
  · rintro (⟨hu, hs⟩ | ⟨hu, he, hc, hs⟩ | ⟨hu, he, hc, hseq⟩ | ⟨hu, he, hs, hseq⟩)
    · simp [Constraint.checkElastic, hu, hs]
    · simp [Constraint.checkElastic, hu, he, hc, hs]
    · simpa [Constraint.checkElastic, hu, he, hc] using hseq
    · simpa [Constraint.checkElastic, hu, he, hs] using hseq

theorem Relaxes.checkSequence (h : Relaxes c d) (he : e.length ≤ maxLength)
    (hseq : c.checkSequence e = .ok ()) : d.checkSequence e = .ok () := by
  obtain ⟨hlength, hnull⟩ := (checkSequence_iff c e).mp hseq
  exact (checkSequence_iff d e).mpr ⟨h.length _ he hlength, fun hd => hnull (h.nonnull hd)⟩

/-- What a constraint admits is admitted by any that asks for no more. -/
theorem checkElastic_of_relaxes (h : Relaxes c d) (he : e.length ≤ maxLength)
    (hok : c.checkElastic e = .ok ()) : d.checkElastic e = .ok () := by
  rw [checkElastic_eq_ok_iff] at hok ⊢
  cases hok with
  | undefined hu hs => exact .undefined hu (h.states.undefined hs)
  | namedNull hu hnull hc hs =>
      have hd : d.states.isSome := h.named.resolve_right (fun hnone => by simp [hnone] at hc)
      exact .namedNull hu hnull hd (h.states.null hs)
  | openNull hu hnull hc hseq =>
      cases hd : d.states with
      | none => exact .openNull hu hnull hd (h.checkSequence he hseq)
      | some s =>
          have hall : c.effectiveStates.null = true := by rw [effectiveStates_of_none hc]; rfl
          exact .namedNull hu hnull (by simp [hd]) (h.states.null hall)
  | defined hu hnull hs hseq =>
      exact .defined hu hnull (h.states.defined hs) (h.checkSequence he hseq)

theorem checkElastic_of_relaxes_pair :
    (⟨some .all, some ⟨.le, 2⟩, none⟩ : Constraint).checkElastic (.ofList [some 7, none]) =
      .ok () := by
  refine checkElastic_of_relaxes (c := ⟨some .nullish, some ⟨.eq, 2⟩, none⟩) ?_ (by decide) rfl
  refine ⟨⟨fun _ => rfl, fun _ => rfl, fun _ => rfl⟩, fun n _ hn => ?_, nofun, .inl rfl⟩
  rintro _ ⟨⟩
  obtain rfl : n = 2 := by simpa [LengthRule.allows] using hn ⟨.eq, 2⟩ rfl
  rfl

/-- To leave the states open asks for more where null is not among the values. -/
example : (⟨some ⟨true, true, false⟩, none, some ⟨true⟩⟩ : Constraint).checkElastic
      (.null : Elastic Nat) = .ok () ∧
    (⟨none, none, some ⟨true⟩⟩ : Constraint).checkElastic (.null : Elastic Nat) =
      .error .nullElement := ⟨rfl, rfl⟩

end PlainTwin.Relaxation
