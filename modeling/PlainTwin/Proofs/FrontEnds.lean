import PlainTwin.Proofs.ItemOutput

namespace PlainTwin.FrontEnds

open Source Generated ItemOutput Success

inductive SameCause : ExpandError → GenerateError → Prop
  | marking (e : AttributeError) : SameCause (.marking e) (.marking e)
  | plan (e : PlanError) : SameCause (.plan e) (.plan e)

/-- No directive excludes the struct, and there is something to do for it. -/
structure AskedFor (r : RichStruct) : Prop where
  ignore : r.directives.ignore = false
  generated : r.directives.generated = false
  tagged : ∃ f ∈ r.fields, f.tag.isSome = true ∧ f.directives.ignore = false

theorem hasTags_iff (r : RichStruct) : r.hasTags = true ↔
    ∃ f ∈ r.fields, f.tag.isSome = true ∧ f.directives.ignore = false := by
  simp [RichStruct.hasTags]

theorem isExcluded_eq_false_iff (r : RichStruct) : r.isExcluded = false ↔ AskedFor r := by
  have hparts : r.isExcluded = false ↔ (r.directives.ignore = false ∧
      r.directives.generated = false) ∧ r.hasTags = true := by
    simp [RichStruct.isExcluded]
  rw [hparts, hasTags_iff]
  constructor
  · rintro ⟨⟨hignore, hgenerated⟩, htagged⟩
    exact ⟨hignore, hgenerated, htagged⟩
  · rintro ⟨hignore, hgenerated, htagged⟩
    exact ⟨⟨hignore, hgenerated⟩, htagged⟩

theorem ofStruct_ne_none {s : Struct} {fields : List Field} (h : s.fields = .named fields) :
    RichStruct.ofStruct s ≠ .ok none := by
  intro hnone
  simp only [RichStruct.ofStruct, h] at hnone
  obtain ⟨m, -, hnone⟩ := bind_eq_ok_iff.mp hnone
  split at hnone
  · cases hnone
  · obtain ⟨traits, -, hnone⟩ := bind_eq_ok_iff.mp hnone
    obtain ⟨fields, -, hnone⟩ := bind_eq_ok_iff.mp hnone
    cases hnone

theorem declaration_cases {s : Struct} {g : Generated} (hy : Yields s g)
    (hnamed : RichStruct.ofStruct s ≠ .ok none)
    (hasked : ∀ r, RichStruct.ofStruct s = .ok (some r) → r.isExcluded = false) :
    (∃ t, Twin.ofDeclaration (.struct s) = .ok t ∧
      g = { structs := [s.name], tokens := t.tokens }) ∨
    ∃ e e', Twin.ofDeclaration (.struct s) = .error e ∧ SameCause e e' ∧ g = { errors := [e'] } := by
  cases hy with
  | @unreadable e hr => exact .inr ⟨_, _, by simp [Twin.ofDeclaration, hr], .marking e, rfl⟩
  | unnamed hr => exact absurd hr hnamed
  | @excluded r hr hx => exact absurd ((hasked r hr).symm.trans hx) Bool.false_ne_true
  | @unplanned r e hr hx hp =>
    exact .inr ⟨_, _, by simp [Twin.ofDeclaration, hr, hp], .plan e, rfl⟩
  | @twin r p hr hx hp =>
    rw [name_of_ofStruct hr]
    exact .inl ⟨_, by simp [Twin.ofDeclaration, hr, hp], rfl⟩

/-- A struct with named fields, if it can be read, is not excluded: then its derive gives what the
generator gives for a file of this struct only, and where there is no twin both tell the same cause. -/
theorem ofDeclaration_eq_generated {s : Struct} {fields : List Field} {file : String}
    (hnamed : s.fields = .named fields)
    (hasked : ∀ r, RichStruct.ofStruct s = .ok (some r) → AskedFor r)
    (hmark : isGenerated file = false) (hfile : Item.ofFile? file = some [.struct s]) :
    ∃ g, ofText? file = some g ∧
      ((∃ t, Twin.ofDeclaration (.struct s) = .ok t) ↔ g.errors = []) ∧
      (∀ t, Twin.ofDeclaration (.struct s) = .ok t →
        g.structs = [s.name] ∧ g.tokens = t.tokens) ∧
      ∀ e, Twin.ofDeclaration (.struct s) = .error e →
        g.structs = [] ∧ g.tokens = [] ∧ ∃ e', g.errors = [e'] ∧ SameCause e e' := by
  refine ⟨_, ofText?_of_unmarked hmark hfile, ?_⟩
  obtain ⟨t, ht, hg⟩ | ⟨e, e', he, hsame, hg⟩ := declaration_cases (yields_ofItems s)
    (ofStruct_ne_none hnamed) fun r hr => (isExcluded_eq_false_iff r).mpr (hasked r hr)
  · rw [ht, hg]
    refine ⟨by simp, fun t' ht' => ?_, by simp⟩
    cases ht'
    exact ⟨rfl, rfl⟩
  · rw [he, hg]
    refine ⟨by simp, by simp, fun e₁ he₁ => ?_⟩
    cases he₁
    exact ⟨rfl, rfl, e', rfl, hsame⟩

def structOf? (source : String) : Option Struct :=
  match Item.ofFile? source with
  | some [.struct s] => some s
  | _ => none

theorem ofFile?_of_structOf? {source : String} {s : Struct} (h : structOf? source = some s) :
    Item.ofFile? source = some [.struct s] := by
  unfold structOf? at h
  split at h
  · next heq =>
      cases h
      exact heq
  · cases h

def namedFields? (s : Struct) : Option (List Field) :=
  match s.fields with
  | .named fields => some fields
  | _ => none

theorem fields_of_namedFields? {s : Struct} {fields : List Field}
    (h : namedFields? s = some fields) : s.fields = .named fields := by
  unfold namedFields? at h
  split at h
  · next heq =>
      cases h
      exact heq
  · cases h

def lone : String := "struct R\x7b#[und(\"def\")]pub b:Und<u8>\x7d"

theorem ofDeclaration_eq_generated_lone : ∃ s t g, Item.ofFile? lone = some [.struct s] ∧
    Twin.ofDeclaration (.struct s) = .ok t ∧ ofText? lone = some g ∧ g.structs = ["R"] ∧
    g.errors = [] ∧ g.tokens = t.tokens := by
  have h : ∃ s ∈ structOf? lone, (s.name = "R" ∧ (namedFields? s).isSome) ∧
      ((RichStruct.ofStruct s).toOption.join.all fun r => !r.isExcluded) ∧
      (Twin.ofDeclaration (.struct s)).isOk := by
    decide +kernel
  obtain ⟨s, hs, ⟨hname, hnamed⟩, hasked, hok⟩ := h
  have hfile := ofFile?_of_structOf? hs
  obtain ⟨fields, hfields⟩ := Option.isSome_iff_exists.mp hnamed
  obtain ⟨t, ht⟩ : ∃ t, Twin.ofDeclaration (.struct s) = .ok t := by
    cases ht : Twin.ofDeclaration (.struct s) with
    | ok t => exact ⟨t, rfl⟩
    | error e =>
      rw [ht] at hok
      cases hok
  obtain ⟨g, hg, hiff, htwin, -⟩ := ofDeclaration_eq_generated (fields_of_namedFields? hfields) (fun r hr => by
    rw [hr] at hasked
    exact (isExcluded_eq_false_iff r).mp (by simpa [Except.toOption] using hasked))
    (by decide +kernel) hfile
  obtain ⟨hstructs, htokens⟩ := htwin t ht
  exact ⟨s, t, g, hfile, ht, hg, hname ▸ hstructs, hiff.mp ⟨t, ht⟩, htokens⟩

end PlainTwin.FrontEnds
