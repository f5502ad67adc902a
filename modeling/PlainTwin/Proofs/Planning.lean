import PlainTwin.Proofs.FieldCells

namespace PlainTwin.Planning

open FieldCells Success

/-- A field that takes part in the conversion. -/
structure Candidate (f : RichField) (container : Container) (tag : String) : Prop where
  ignore : f.directives.ignore = false
  tagged : f.tag = some tag
  exported : f.isExported = true
  contained : f.container = some container

/-- What is wrong with a candidate: its tag, or that the tag does not suit its container. -/
inductive Fails (type : String) (f : RichField) : PlanError → Prop
  | tag {container tag e} (h : Candidate f container tag)
      (hparse : Constraint.parse tag = .error e) : Fails type f (.tag type f.name e)
  | select {container tag c e} (h : Candidate f container tag)
      (hparse : Constraint.parse tag = .ok c) (hselect : c.select container.kind = .error e) :
      Fails type f (.select type f.name e)

def Acceptable (f : RichField) : Prop :=
  ∀ container tag, Candidate f container tag →
    ∃ c v, Constraint.parse tag = .ok c ∧ c.select container.kind = .ok v

def Converted (f : RichField) : Prop :=
  ∃ container tag c v, Candidate f container tag ∧ Constraint.parse tag = .ok c ∧
    c.select container.kind = .ok (some v)

theorem Candidate.unique {f : RichField} {container container' : Container} {tag tag' : String}
    (h : Candidate f container tag) (h' : Candidate f container' tag') :
    container = container' ∧ tag = tag' :=
  ⟨Option.some.inj (h.contained.symm.trans h'.contained),
    Option.some.inj (h.tagged.symm.trans h'.tagged)⟩

theorem candidate?_eq_some_iff {f : RichField} {container : Container} {tag : String} :
    f.candidate? = some (container, tag) ↔ Candidate f container tag := by
  constructor
  · intro h
    obtain ⟨hignore, htag, hexported, hcontainer⟩ := eq_of_candidate? h
    exact ⟨hignore, htag, hexported, hcontainer⟩
  · rintro ⟨hignore, htag, hexported, hcontainer⟩
    simp [RichField.candidate?, hignore, htag, hexported, hcontainer]

theorem build_of_candidate?_eq_none {f : RichField} (h : f.candidate? = none) (type : String) :
    FieldPlan.build type f = .ok ⟨f, .copied⟩ := by
  simp only [FieldPlan.build, h]

theorem build_eq_error_iff {type : String} {f : RichField} {e : PlanError} :
    FieldPlan.build type f = .error e ↔ Fails type f e := by
  constructor
  · intro h
    unfold FieldPlan.build at h
    split at h
    · cases h
    · next container tag hsome =>
        have hcandidate := candidate?_eq_some_iff.mp hsome
        split at h
        · next hparse =>
            cases h
            exact .tag hcandidate hparse
        · next c hparse =>
            split at h
            · next hselect =>
                cases h
                exact .select hcandidate hparse hselect
            · cases h
  · intro h
    cases h with
    | tag h hparse =>
        simp only [FieldPlan.build, candidate?_eq_some_iff.mpr h, hparse]
    | select h hparse hselect =>
        simp only [FieldPlan.build, candidate?_eq_some_iff.mpr h, hparse, hselect]

theorem not_candidate_of_copied {f : RichField} (h : f.directives.ignore = true ∨ f.tag = none ∨
    f.isExported = false ∨ f.container = none) {container : Container} {tag : String} :
    ¬ Candidate f container tag := by
  rw [← candidate?_eq_some_iff, (candidate?_eq_none_iff f).mpr h]
  exact fun hsome => by cases hsome

theorem acceptable_of_planned {f : RichField} {d : Decision} (h : Planned f d) : Acceptable f := by
  intro container tag hcandidate
  cases h with
  | copied h => exact absurd hcandidate (not_candidate_of_copied h)
  | checked hignore htag hexported hcontainer hparse hselect =>
      obtain ⟨rfl, rfl⟩ := hcandidate.unique ⟨hignore, htag, hexported, hcontainer⟩
      exact ⟨_, _, hparse, hselect⟩

theorem not_acceptable_of_fails {type : String} {f : RichField} {e : PlanError}
    (h : Fails type f e) : ¬ Acceptable f := by
  intro hf
  cases h with
  | tag hcandidate hparse =>
      obtain ⟨c, v, hok, -⟩ := hf _ _ hcandidate
      rw [hparse] at hok
      cases hok
  | select hcandidate hparse hselect =>
      obtain ⟨c, v, hok, hv⟩ := hf _ _ hcandidate
      cases hparse.symm.trans hok
      rw [hselect] at hv
      cases hv

theorem acceptable_iff (type : String) {f : RichField} :
    Acceptable f ↔ ∃ p, FieldPlan.build type f = .ok p := by
  cases hbuild : FieldPlan.build type f with
  | ok p => exact iff_of_true (acceptable_of_planned (planned_of_build hbuild).2) ⟨p, rfl⟩
  | error e =>
      refine iff_of_false (not_acceptable_of_fails (build_eq_error_iff.mp hbuild)) ?_
      rintro ⟨p, hp⟩
      cases hp

theorem constraint?_isSome_iff {f : RichField} {d : Decision} (h : Planned f d) :
    d.constraint?.isSome ↔ ∃ container tag, Candidate f container tag := by
  cases h with
  | copied h =>
      refine iff_of_false (by simp [Decision.constraint?]) ?_
      rintro ⟨container, tag, hcandidate⟩
      exact not_candidate_of_copied h hcandidate
  | checked hignore htag hexported hcontainer =>
      exact iff_of_true rfl ⟨_, _, hignore, htag, hexported, hcontainer⟩

theorem conversion?_isSome_iff {f : RichField} {d : Decision} (h : Planned f d) :
    d.conversion?.isSome ↔ Converted f := by
  cases h with
  | copied h =>
      refine iff_of_false (by simp [Decision.conversion?]) ?_
      rintro ⟨container, tag, c, v, hcandidate, -⟩
      exact not_candidate_of_copied h hcandidate
  | @checked tag container c v hignore htag hexported hcontainer hparse hselect =>
      have hcandidate : Candidate f container tag := ⟨hignore, htag, hexported, hcontainer⟩
      constructor
      · intro hv
        obtain ⟨conv, rfl⟩ := Option.isSome_iff_exists.mp hv
        exact ⟨container, tag, c, conv, hcandidate, hparse, hselect⟩
      · rintro ⟨container', tag', c', conv, hcandidate', hparse', hselect'⟩
        obtain ⟨rfl, rfl⟩ := hcandidate.unique hcandidate'
        cases hparse.symm.trans hparse'
        cases hselect.symm.trans hselect'
        rfl

theorem exists_mem_iff {fs : List RichField} {ps : List FieldPlan}
    (hfields : ps.map (·.field) = fs) (hplanned : ∀ p ∈ ps, Planned p.field p.decision) :
    (∃ p ∈ ps, p.decision.conversion?.isSome) ↔ ∃ f ∈ fs, Converted f := by
  subst hfields
  simp only [List.mem_map, exists_exists_and_eq_and]
  exact exists_congr fun p => and_congr_right fun hp => conversion?_isSome_iff (hplanned p hp)

theorem any_iff {type : String} {fs : List RichField} {ps : List FieldPlan}
    (h : fs.mapM (FieldPlan.build type) = .ok ps) :
    (ps.any fun p => p.decision.conversion?.isSome) = true ↔ ∃ f ∈ fs, Converted f := by
  obtain ⟨hfields, hplanned⟩ := planned_of_mapM h
  rw [List.any_eq_true, exists_mem_iff hfields hplanned]

theorem plan_build_eq_ok_iff {s : RichStruct} {p : Plan} : Plan.build s = .ok p ↔
    p.rich = s ∧ s.fields.mapM (FieldPlan.build s.name) = .ok p.fields ∧
      ∃ f ∈ s.fields, Converted f := by
  constructor
  · intro h
    obtain ⟨ps, hps, h⟩ := bind_eq_ok_iff.mp h
    split at h
    · next hany =>
        cases h
        exact ⟨rfl, hps, (any_iff hps).mp hany⟩
    · cases h
  · obtain ⟨rich, ps⟩ := p
    rintro ⟨rfl, hps, hconverted⟩
    refine bind_eq_ok_iff.mpr ⟨ps, hps, ?_⟩
    rw [if_pos ((any_iff hps).mpr hconverted)]
    rfl

theorem plan_build_eq_error_iff {s : RichStruct} {e : PlanError} : Plan.build s = .error e ↔
    s.fields.mapM (FieldPlan.build s.name) = .error e ∨
      (∃ ps, s.fields.mapM (FieldPlan.build s.name) = .ok ps) ∧ (∀ f ∈ s.fields, ¬ Converted f) ∧
        e = .noFieldModified s.name := by
  have hnone {ps : List FieldPlan} (hps : s.fields.mapM (FieldPlan.build s.name) = .ok ps) :
      (ps.any fun p => p.decision.conversion?.isSome) = false ↔ ∀ f ∈ s.fields, ¬ Converted f := by
    rw [← Bool.not_eq_true, any_iff hps, not_exists]
    exact forall_congr' fun f => not_and
  rw [Plan.build, bind_eq_error_iff]
  refine or_congr_right ?_
  constructor
  · rintro ⟨ps, hps, h⟩
    split at h
    · cases h
    · next hany =>
        cases h
        exact ⟨⟨ps, hps⟩, (hnone hps).mp (by simpa using hany), rfl⟩
  · rintro ⟨⟨ps, hps⟩, hconverted, rfl⟩
    refine ⟨ps, hps, ?_⟩
    rw [(hnone hps).mpr hconverted]
    rfl

theorem exists_planned_iff (type : String) {fs : List RichField} :
    (∃ ps, fs.mapM (FieldPlan.build type) = .ok ps) ↔ ∀ f ∈ fs, Acceptable f := by
  rw [exists_mapM_iff]
  exact forall₂_congr fun f _ => (acceptable_iff type).symm

def onlyCandidates (s : RichStruct) : RichStruct :=
  { s with fields := s.fields.filter fun f => f.candidate?.isSome }

theorem mapM_filter (type : String) (fs : List RichField) :
    (fs.filter fun f => f.candidate?.isSome).mapM (FieldPlan.build type) =
      (fun ps => ps.filter fun p => p.field.candidate?.isSome) <$>
        fs.mapM (FieldPlan.build type) := by
  induction fs with
  | nil => rfl
  | cons f fs ih =>
      rw [List.mapM_cons]
      cases hf : f.candidate? with
      | none =>
          rw [List.filter_cons_of_neg (by simp [hf]), ih, build_of_candidate?_eq_none hf]
          cases fs.mapM (FieldPlan.build type) <;> simp [bind, Except.bind, pure, Except.pure, hf]
      | some candidate =>
          rw [List.filter_cons_of_pos (by simp [hf]), List.mapM_cons, ih]
          cases hbuild : FieldPlan.build type f with
          | error e => rfl
          | ok p =>
              have hfield : p.field.candidate?.isSome := by
                rw [(planned_of_build hbuild).1, hf]
                rfl
              cases fs.mapM (FieldPlan.build type) <;>
                simp [bind, Except.bind, pure, Except.pure, hfield]

theorem exists_converted_filter_iff {fs : List RichField} :
    (∃ f ∈ fs.filter fun f => f.candidate?.isSome, Converted f) ↔ ∃ f ∈ fs, Converted f := by
  refine exists_congr fun f => ?_
  rw [List.mem_filter, and_assoc]
  refine and_congr_right fun _ => and_iff_right_of_imp ?_
  rintro ⟨container, tag, c, v, hcandidate, -⟩
  rw [candidate?_eq_some_iff.mpr hcandidate]
  rfl

theorem build_onlyCandidates (s : RichStruct) : Plan.build (onlyCandidates s) =
    (fun p => ⟨onlyCandidates s, p.fields.filter fun q => q.field.candidate?.isSome⟩) <$>
      Plan.build s := by
  have hfilter := mapM_filter s.name s.fields
  cases hps : s.fields.mapM (FieldPlan.build s.name) with
  | error e =>
      rw [hps] at hfilter
      rw [plan_build_eq_error_iff.mpr (.inl hps)]
      exact plan_build_eq_error_iff.mpr (.inl hfilter)
  | ok ps =>
      rw [hps] at hfilter
      by_cases hconverted : ∃ f ∈ s.fields, Converted f
      · have hplan : Plan.build s = .ok ⟨s, ps⟩ := plan_build_eq_ok_iff.mpr ⟨rfl, hps, hconverted⟩
        rw [hplan]
        exact plan_build_eq_ok_iff.mpr ⟨rfl, hfilter, exists_converted_filter_iff.mpr hconverted⟩
      · have hnone : ∀ f ∈ s.fields, ¬ Converted f := fun f hf h => hconverted ⟨f, hf, h⟩
        rw [plan_build_eq_error_iff.mpr (.inr ⟨⟨ps, hps⟩, hnone, rfl⟩)]
        exact plan_build_eq_error_iff.mpr
          (.inr ⟨⟨_, hfilter⟩, fun f hf => hnone f (List.mem_of_mem_filter hf), rfl⟩)

/-- A struct has a plan if and only if nothing is wrong with any candidate and one of them is
converted. The plan has all fields in their order and a constraint for the candidates only. Where
there is no plan, the first candidate with a fault is told, or else that no field is modified. The
other fields do not matter, whatever their tags. -/
theorem build_of_candidates (s : RichStruct) :
    ((∃ p, Plan.build s = .ok p) ↔
      (∀ f ∈ s.fields, Acceptable f) ∧ ∃ f ∈ s.fields, Converted f) ∧
    (∀ p, Plan.build s = .ok p → p.rich = s ∧ p.fields.map (·.field) = s.fields ∧
      ∀ q ∈ p.fields, Planned q.field q.decision ∧
        (q.decision.constraint?.isSome ↔ ∃ container tag, Candidate q.field container tag)) ∧
    (∀ e, Plan.build s = .error e ↔
      (∃ before f after, s.fields = before ++ f :: after ∧ (∀ g ∈ before, Acceptable g) ∧
        Fails s.name f e) ∨
      (∀ f ∈ s.fields, Acceptable f) ∧ (∀ f ∈ s.fields, ¬ Converted f) ∧
        e = .noFieldModified s.name) ∧
    Plan.build (onlyCandidates s) =
      (fun p => ⟨onlyCandidates s, p.fields.filter fun q => q.field.candidate?.isSome⟩) <$>
        Plan.build s := by
  refine ⟨?_, fun p hp => ?_, fun e => ?_, build_onlyCandidates s⟩
  · simp only [plan_build_eq_ok_iff, ← exists_planned_iff s.name]
    constructor
    · rintro ⟨p, -, hps, hconverted⟩
      exact ⟨⟨p.fields, hps⟩, hconverted⟩
    · rintro ⟨⟨ps, hps⟩, hconverted⟩
      exact ⟨⟨s, ps⟩, rfl, hps, hconverted⟩
  · obtain ⟨hrich, hps, -⟩ := plan_build_eq_ok_iff.mp hp
    obtain ⟨hfields, hplanned⟩ := planned_of_mapM hps
    exact ⟨hrich, hfields, fun q hq => ⟨hplanned q hq, constraint?_isSome_iff (hplanned q hq)⟩⟩
  · rw [plan_build_eq_error_iff, exists_planned_iff, mapM_eq_error_iff]
    simp only [acceptable_iff s.name, build_eq_error_iff]

end PlainTwin.Planning
