import PlainTwin.Proofs.Success
import PlainTwin.Proofs.ValidTrip
import PlainTwin.Twin.Record

namespace PlainTwin.FieldCells

open CallChain Checking PlainTrip Selection Success ValidTrip

inductive Planned (f : RichField) : Decision → Prop
  | copied (h : f.directives.ignore = true ∨ f.tag = none ∨ f.isExported = false ∨
      f.container = none) : Planned f .copied
  | checked {tag : String} {container : Container} {c : Constraint} {v : Option Conversion}
      (hignore : f.directives.ignore = false) (htag : f.tag = some tag)
      (hexported : f.isExported = true) (hcontainer : f.container = some container)
      (hparse : Constraint.parse tag = .ok c) (hselect : c.select container.kind = .ok v) :
      Planned f (.checked container c v)

theorem candidate?_eq_none_iff (f : RichField) : f.candidate? = none ↔
    f.directives.ignore = true ∨ f.tag = none ∨ f.isExported = false ∨ f.container = none := by
  cases htag : f.tag <;> cases hcontainer : f.container <;> cases hignore : f.directives.ignore <;>
    simp [RichField.candidate?, htag, hcontainer, hignore]

theorem eq_of_candidate? {f : RichField} {container : Container} {tag : String}
    (h : f.candidate? = some (container, tag)) : f.directives.ignore = false ∧ f.tag = some tag ∧
      f.isExported = true ∧ f.container = some container := by
  obtain ⟨t, htag, h⟩ := Option.bind_eq_some_iff.mp h
  obtain ⟨k, hcontainer, h⟩ := Option.bind_eq_some_iff.mp h
  split at h
  · next hin =>
      cases h
      obtain ⟨hignore, hexported⟩ := Bool.and_eq_true_iff.mp hin
      exact ⟨by simpa using hignore, htag, hexported, hcontainer⟩
  · cases h

theorem planned_of_build {type : String} {f : RichField} {p : FieldPlan}
    (h : FieldPlan.build type f = .ok p) : p.field = f ∧ Planned f p.decision := by
  unfold FieldPlan.build at h
  split at h
  · next hnone =>
      cases h
      exact ⟨rfl, .copied ((candidate?_eq_none_iff f).mp hnone)⟩
  · next container tag hsome =>
      obtain ⟨hignore, htag, hexported, hcontainer⟩ := eq_of_candidate? hsome
      split at h
      · cases h
      · next c hparse =>
          split at h
          · cases h
          · next v hselect =>
              cases h
              exact ⟨rfl, .checked hignore htag hexported hcontainer hparse hselect⟩

theorem planned_of_mapM {type : String} {fs : List RichField} {ps : List FieldPlan}
    (h : fs.mapM (FieldPlan.build type) = .ok ps) :
    ps.map (·.field) = fs ∧ ∀ p ∈ ps, Planned p.field p.decision := by
  induction fs generalizing ps with
  | nil =>
      cases h
      exact ⟨rfl, fun p hp => absurd hp List.not_mem_nil⟩
  | cons f fs ih =>
      rw [List.mapM_cons] at h
      obtain ⟨p, hp, h⟩ := bind_eq_ok_iff.mp h
      obtain ⟨qs, hqs, h⟩ := bind_eq_ok_iff.mp h
      cases h
      obtain ⟨hfield, hplanned⟩ := planned_of_build hp
      obtain ⟨hfields, hall⟩ := ih hqs
      rw [List.map_cons, List.forall_mem_cons, hfields, hfield]
      exact ⟨rfl, hplanned, hall⟩

theorem planned_of_plan {s : RichStruct} {p : Plan} (h : Plan.build s = .ok p) :
    p.fields.map (·.field) = s.fields ∧ ∀ f ∈ p.fields, Planned f.field f.decision := by
  obtain ⟨fs, hfs, h⟩ := bind_eq_ok_iff.mp h
  split at h
  · cases h
    exact planned_of_mapM hfs
  · cases h

end PlainTwin.FieldCells
