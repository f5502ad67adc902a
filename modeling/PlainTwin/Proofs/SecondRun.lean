import PlainTwin.Proofs.OutputFiles
import PlainTwin.Proofs.UpToDate

namespace PlainTwin

def Generate.forInputs (g : Generate) (inputs : List String) : Generate :=
  { g with inputs := inputs }

namespace SecondRun

open Directories Generate OutputFiles Preparation PlainTwin.Tree TreePlaces Workers

def outputs (outcomes : List (FilePath × Outcome)) : List FilePath :=
  outcomes.filterMap fun (_, o) => match o with
    | .written output _ _ => some output
    | _ => none

theorem exists_written {outcomes : List (FilePath × Outcome)} {p : FilePath}
    (h : p ∈ outputs outcomes) :
    ∃ input structs errors, (input, .written p structs errors) ∈ outcomes := by
  obtain ⟨⟨input, o⟩, hmem, ho⟩ := List.mem_filterMap.mp h
  cases o with
  | written output structs errors =>
    cases ho
    exact ⟨input, structs, errors, hmem⟩
  | nothing | skipped | failed => cases ho

section Recognition

open Generated

theorem isGenerated_render (made : Generated) : isGenerated made.render = true := by
  have hline : '\n' ∉ header.toList := by decide
  have htext : ∃ rest, made.render.toList = header.toList ++ '\n' :: rest := by
    simp only [Generated.render, String.toList_append]
    exact ⟨_, by simp only [List.append_assoc]; rfl⟩
  obtain ⟨rest, hrest⟩ := htext
  rw [isGenerated, hrest, List.splitOn_append_cons_self_of_not_mem hline]
  rfl

theorem work_render (input : FilePath) (made : Generated) :
    work input (.ok made.render.toUTF8) = .inl .skipped := by
  have htext : String.fromUTF8? made.render.toUTF8 = some made.render := by
    rw [String.fromUTF8?, String.toUTF8_eq_toByteArray, dif_pos made.render.isValidUTF8]
    rfl
  have hskipped : ofText? made.render = some { skipped := true } := by
    rw [ofText?, if_pos (isGenerated_render made)]
  simp only [work, htext, hskipped]
  rfl

end Recognition

theorem eq_of_kind_eq_skipped {o : Outcome} (h : o.kind = .skipped) : o = .skipped := by
  cases o with
  | failed e => cases e <;> cases h
  | written | nothing | skipped => exact h

section Again

variable {g : Generate} {t₁ t₂ : Tree} {inputs : List FilePath}
  {outcomes : List (FilePath × Outcome)} (hresult : Result g t₁ inputs outcomes t₂)
include hresult

theorem read_output {p : FilePath} (hp : p ∈ outputs outcomes) :
    ∃ made : Generated, t₂.read p = .ok made.render.toUTF8 := by
  obtain ⟨input, structs, errors, hmem⟩ := exists_written hp
  obtain ⟨made, -, -, -, -, -, hread⟩ := written_of_mem hresult hmem
  exact ⟨made, hread⟩

theorem alone_output (g' : Generate) {p : FilePath} (hp : p ∈ outputs outcomes) :
    g'.alone t₂ p = .skipped := by
  obtain ⟨made, hread⟩ := read_output hresult hp
  rw [alone_eq, hread, work_render]

theorem read_input (hsep : g.Separate t₁ inputs) {i : FilePath} (hi : i ∈ inputs) :
    t₂.read i = t₁.read i ∨ (∃ e, t₂.read i = .error e) ∧ ∃ e, t₁.read i = .error e := by
  obtain ⟨k, hk, hk'⟩ | herrors := locate_cases hresult.dirs i
  · have hno : ∀ j ∈ inputs, ¬g.WritesTo t₁ j k := fun j hj hwrites =>
      hsep.inputs j hj i hi k hwrites hk
    exact .inl (read_eq_of_node? hk' hk (hresult.others k hno))
  · exact .inr herrors

/-- An input has the same thing to be written, at the same place, after a run as before it. -/
theorem writes_forInputs_iff (hsep : g.Separate t₁ inputs) {args : List String} {i : FilePath}
    (hi : i ∈ inputs) {made : Generated} {l : Location} :
    Writes (g.forInputs args) t₂ i made l ↔ Writes g t₁ i made l := by
  have hplace := locate_eq_ok_iff hresult.dirs (p := g.output i) (l := l)
  have hfree := not_congr (hresult.dirs l)
  obtain hread | ⟨⟨e, he⟩, e', he'⟩ := read_input hresult hsep hi
  · constructor
    · exact fun hw => ⟨hread ▸ hw.work, hplace.mpr hw.place, hfree.mpr hw.free⟩
    · exact fun hw => ⟨hread.symm ▸ hw.work, hplace.mp hw.place, hfree.mp hw.free⟩
  · exact iff_of_false (fun hw => hw.read_ne_error e he) (fun hw => hw.read_ne_error e' he')

theorem refills_of_written (hsep : g.Separate t₁ inputs) {args : List String} {again : List FilePath}
    {i p : FilePath} (hi : i ∈ again) {structs : List String} {errors : List GenerateError}
    (hmem : (i, .written p structs errors) ∈ outcomes) :
    (g.forInputs args).Refills t₂ again p := by
  obtain ⟨made, l, hw, rfl, -⟩ := written_of_mem hresult hmem
  have hinput : i ∈ inputs := by
    rw [← order_of_result hresult]
    exact List.mem_map_of_mem hmem
  have hl : t₂.locate (g.output i) = .ok l := (locate_eq_ok_iff hresult.dirs).mp hw.place
  have hw' : Writes (g.forInputs args) t₂ i made l :=
    (writes_forInputs_iff hresult hsep hinput).mpr hw
  exact ⟨i, hi, l, writesTo_iff.mpr ⟨made, hw'⟩, hl⟩

theorem exists_ends_nothing_of_refills {args : List String} {again : List FilePath} {p : FilePath}
    (hp : p ∈ outputs outcomes) (hmem : p ∈ again)
    (hrefills : (g.forInputs args).Refills t₂ again p) :
    ∃ outcomes' t₃, (g.forInputs args).Ends t₂ again outcomes' t₃ ∧ (p, .nothing []) ∈ outcomes' := by
  obtain ⟨i, hi, l, hwrites, hl⟩ := hrefills
  refine exists_ends_nothing hi hmem ?_ hwrites hl
  rintro rfl
  obtain ⟨structs, errors, halone⟩ := hwrites.1
  rw [alone_output hresult (g.forInputs args) hp] at halone
  cases halone

theorem upToDate_forInputs (hsep : g.Separate t₁ inputs) (args : List String)
    {again : List FilePath} (hagain : ∀ p ∈ again, p ∈ inputs ∨ p ∈ outputs outcomes) :
    (g.forInputs args).UpToDate t₂ again := by
  intro i hi made l hw
  obtain hinput | houtput := hagain i hi
  · exact hresult.output i hinput made l ((writes_forInputs_iff hresult hsep hinput).mp hw)
  · obtain ⟨made', hread⟩ := read_output hresult houtput
    have hwork := hw.work
    rw [hread, work_render] at hwork
    cases hwork

end Again

/-- A second run over what a run has read and written changes no file, makes none, and skips all
that was written. So do workers at the same time, but that one of them may meet a file which another
has emptied and is about to fill again: it finds nothing in that file. This may come about for every
file that is written again, and for no other. A run that fails before it comes to its inputs fails
again, and changes nothing then. -/
theorem unchanged_of_second_run {g : Generate} {t t₁ : Tree} :
    (∀ e, g.prepareIn t = (.error e, t₁) →
      g.runIn t = (.fail e, t₁) ∧ ∃ e', g.runIn t₁ = (.fail e', t₁)) ∧
    ∀ inputs, g.prepareIn t = (.ok inputs, t₁) → g.Separate t₁ inputs →
      ∀ outcomes t₂, g.Ends t₁ inputs outcomes t₂ →
      ∀ args paths, found args t₂ = .ok paths →
        (∀ p ∈ paths.flatten, p ∈ inputs ∨ p ∈ outputs outcomes) →
      (g.forInputs args).prepareIn t₂ = (.ok paths.flatten, t₂) ∧
      (∃ outcomes' t₃, (g.forInputs args).runIn t₂ = (report outcomes', t₃) ∧
        outcomes'.map Prod.fst = paths.flatten ∧ (∀ l, t₃.node? l = t₂.node? l) ∧
        ∀ p ∈ outputs outcomes, ∀ o, (p, o) ∈ outcomes' → o = .skipped) ∧
      (∀ outcomes' t₃, (g.forInputs args).Ends t₂ paths.flatten outcomes' t₃ →
        outcomes'.map Prod.fst = paths.flatten ∧ (∀ l, t₃.node? l = t₂.node? l) ∧
        ∀ p ∈ outputs outcomes, ∀ o, (p, o) ∈ outcomes' →
          o = .skipped ∨ o = .nothing [] ∧ (g.forInputs args).Refills t₂ paths.flatten p) ∧
      ∀ p ∈ outputs outcomes, p ∈ paths.flatten →
        (g.forInputs args).Refills t₂ paths.flatten p →
        ∃ outcomes' t₃, (g.forInputs args).Ends t₂ paths.flatten outcomes' t₃ ∧
          (p, .nothing []) ∈ outcomes' := by
  refine ⟨fun e hprep => ?_, fun inputs hprep hsep outcomes t₂ hends args paths hfound hpaths => ?_⟩
  · obtain ⟨e', he'⟩ := prepare_of_error hprep
    refine ⟨?_, e', ?_⟩
    · rw [runIn_eq, hprep]
    · rw [runIn_eq, he']
  · have hresult := result_of_ends hsep hends
    have hup : (g.forInputs args).UpToDate t₂ paths.flatten :=
      upToDate_forInputs hresult hsep args hpaths
    have hagain : (g.forInputs args).prepareIn t₂ = (.ok paths.flatten, t₂) := by
      refine prepare_of_isDir hfound fun dir hdir => ?_
      obtain hempty | hdir := isDir_of_prepare hprep hdir
      · exact .inl hempty
      · exact .inr (isDir_of_sameDirs hresult.dirs hdir)
    have hskipped : ∀ p ∈ outputs outcomes, (g.forInputs args).alone t₂ p = .skipped :=
      fun p hp => alone_output hresult (g.forInputs args) hp
    have hinOrder := ends_inOrder (g.forInputs args) paths.flatten t₂
    obtain ⟨hnodes, horder, -⟩ := restored_of_ends hup hinOrder
    refine ⟨hagain, ⟨_, _, ?_, horder, hnodes, fun p hp o ho => ?_⟩,
      fun outcomes' t₃ hends' => ?_, fun p hp hmem hrefills => ?_⟩
    · rw [runIn_eq, hagain]
    · have hkind := kind_of_inOrder hup (fun i hi => hi) (fun l => rfl) (p, o) ho
      rw [hskipped p hp] at hkind
      exact eq_of_kind_eq_skipped hkind
    · obtain ⟨hnodes', horder', hkinds⟩ := restored_of_ends hup hends'
      refine ⟨horder', hnodes', fun p hp o ho => ?_⟩
      obtain hkind | hnothing := hkinds (p, o) ho
      · rw [hskipped p hp] at hkind
        exact .inl (eq_of_kind_eq_skipped hkind)
      · exact .inr hnothing
    · exact exists_ends_nothing_of_refills hresult hp hmem hrefills

def astray : Generate := { inputs := ["["] }

theorem second_run_of_namesakes : (∃ e, astray.runIn namesakes = (.fail e, namesakes)) ∧
    ∃ outcomes t₂, besides.Ends namesakes [⟨"a/x.rs"⟩, ⟨"b/x.rs"⟩] outcomes t₂ ∧
    outputs outcomes = [⟨"a/x_plain.rs"⟩, ⟨"b/x_plain.rs"⟩] ∧
    let again := besides.forInputs ["a/x_plain.rs", "b/x.rs", "b/x_plain.rs"]
    (∃ outcomes' t₃, again.runIn t₂ = (report outcomes', t₃) ∧
      outcomes'.map Prod.fst = [⟨"a/x_plain.rs"⟩, ⟨"b/x.rs"⟩, ⟨"b/x_plain.rs"⟩] ∧
      (∀ l, t₃.node? l = t₂.node? l) ∧ ∀ o, (⟨"b/x_plain.rs"⟩, o) ∈ outcomes' → o = .skipped) ∧
    ∃ outcomes' t₃, again.Ends t₂ [⟨"a/x_plain.rs"⟩, ⟨"b/x.rs"⟩, ⟨"b/x_plain.rs"⟩] outcomes' t₃ ∧
      (⟨"b/x_plain.rs"⟩, .nothing []) ∈ outcomes' ∧ (∀ l, t₃.node? l = t₂.node? l) ∧
      ∀ o, (⟨"a/x_plain.rs"⟩, o) ∈ outcomes' →
        o = .skipped ∨ o = .nothing [] ∧
          again.Refills t₂ [⟨"a/x_plain.rs"⟩, ⟨"b/x.rs"⟩, ⟨"b/x_plain.rs"⟩] ⟨"a/x_plain.rs"⟩ := by
  have hastray : astray.prepareIn namesakes = (.error .unresolved, namesakes) := by rfl
  have hprep : besides.prepareIn namesakes = (.ok [⟨"a/x.rs"⟩, ⟨"b/x.rs"⟩], namesakes) := by rfl
  let r := besides.inOrder namesakes [⟨"a/x.rs"⟩, ⟨"b/x.rs"⟩]
  let args := ["a/x_plain.rs", "b/x.rs", "b/x_plain.rs"]
  let again : List FilePath := [⟨"a/x_plain.rs"⟩, ⟨"b/x.rs"⟩, ⟨"b/x_plain.rs"⟩]
  have houtcomes : r.1 = [(⟨"a/x.rs"⟩, .written ⟨"a/x_plain.rs"⟩ ["A"] []),
      (⟨"b/x.rs"⟩, .written ⟨"b/x_plain.rs"⟩ ["BB"] [])] := by decide +kernel
  have houtputs : outputs r.1 = [⟨"a/x_plain.rs"⟩, ⟨"b/x_plain.rs"⟩] := by rw [houtcomes]; rfl
  have hfound : ∀ t, found args t = .ok [[⟨"a/x_plain.rs"⟩], [⟨"b/x.rs"⟩], [⟨"b/x_plain.rs"⟩]] :=
    fun _ => rfl
  have hends : besides.Ends namesakes [⟨"a/x.rs"⟩, ⟨"b/x.rs"⟩] r.1 r.2 :=
    ends_inOrder besides [⟨"a/x.rs"⟩, ⟨"b/x.rs"⟩] namesakes
  have hpaths : ∀ p ∈ again, p ∈ [(⟨"a/x.rs"⟩ : FilePath), ⟨"b/x.rs"⟩] ∨ p ∈ outputs r.1 := by
    rw [houtputs]
    decide
  have ha : ⟨"a/x_plain.rs"⟩ ∈ outputs r.1 := by simp [houtputs]
  have hb : ⟨"b/x_plain.rs"⟩ ∈ outputs r.1 := by simp [houtputs]
  have hrefills : (besides.forInputs args).Refills r.2 again ⟨"b/x_plain.rs"⟩ := by
    have hwritten : (⟨"b/x.rs"⟩, .written ⟨"b/x_plain.rs"⟩ ["BB"] []) ∈ r.1 := by simp [houtcomes]
    exact refills_of_written (result_of_ends separate_besides hends) separate_besides (by decide)
      hwritten
  obtain ⟨-, hagain⟩ := unchanged_of_second_run.1 _ hastray
  obtain ⟨-, ⟨outcomes', t₃, hrun, horder, hnodes, hskipped⟩, hall, hmet⟩ :=
    unchanged_of_second_run.2 _ hprep separate_besides _ _ hends _ _ (hfound r.2) hpaths
  obtain ⟨outcomes'', t₄, hends', hmem⟩ := hmet _ hb (by decide) hrefills
  obtain ⟨-, hnodes', hskipped'⟩ := hall outcomes'' t₄ hends'
  exact ⟨hagain, r.1, r.2, hends, houtputs, ⟨outcomes', t₃, hrun, horder, hnodes, hskipped _ hb⟩,
    outcomes'', t₄, hends', hmem, hnodes', hskipped' _ ha⟩

def lone : Generate := { inputs := ["a/x.rs"], noLayout := true }

def unclosed : Generate := { lone with suffix := "[" }

/-- The worker for the input has emptied the output when the other worker reads it. The output with
a bracket in its name is no input at all, as every input with a bracket is read as a pattern. -/
theorem written_not_skipped :
    (∃ outcomes t₂, lone.prepareIn namesakes = (.ok [⟨"a/x.rs"⟩], namesakes) ∧
      lone.Separate namesakes [⟨"a/x.rs"⟩] ∧ lone.Ends namesakes [⟨"a/x.rs"⟩] outcomes t₂ ∧
      outputs outcomes = [⟨"a/x_plain.rs"⟩] ∧
      let again := lone.forInputs ["a/x.rs", "a/x_plain.rs"]
      again.prepareIn t₂ = (.ok [⟨"a/x.rs"⟩, ⟨"a/x_plain.rs"⟩], t₂) ∧
      ∃ outcomes' t₃, again.Ends t₂ [⟨"a/x.rs"⟩, ⟨"a/x_plain.rs"⟩] outcomes' t₃ ∧
        (⟨"a/x_plain.rs"⟩, .nothing []) ∈ outcomes') ∧
    ∃ outcomes t₂, unclosed.prepareIn namesakes = (.ok [⟨"a/x.rs"⟩], namesakes) ∧
      unclosed.Separate namesakes [⟨"a/x.rs"⟩] ∧
      unclosed.Ends namesakes [⟨"a/x.rs"⟩] outcomes t₂ ∧ outputs outcomes = [⟨"a/x[.rs"⟩] ∧
      (unclosed.forInputs ["a/x.rs", "a/x[.rs"]).runIn t₂ = (.fail .unresolved, t₂) := by
  have hprep : lone.prepareIn namesakes = (.ok [⟨"a/x.rs"⟩], namesakes) := by rfl
  have hprep' : unclosed.prepareIn namesakes = (.ok [⟨"a/x.rs"⟩], namesakes) := by rfl
  have hsep : lone.Separate namesakes [⟨"a/x.rs"⟩] := separate_of_places (by decide +kernel)
  have hsep' : unclosed.Separate namesakes [⟨"a/x.rs"⟩] := separate_of_places (by decide +kernel)
  let r := lone.inOrder namesakes [⟨"a/x.rs"⟩]
  let r' := unclosed.inOrder namesakes [⟨"a/x.rs"⟩]
  have hends : lone.Ends namesakes [⟨"a/x.rs"⟩] r.1 r.2 := ends_inOrder lone [⟨"a/x.rs"⟩] namesakes
  have hends' : unclosed.Ends namesakes [⟨"a/x.rs"⟩] r'.1 r'.2 :=
    ends_inOrder unclosed [⟨"a/x.rs"⟩] namesakes
  have houtcomes : r.1 = [(⟨"a/x.rs"⟩, .written ⟨"a/x_plain.rs"⟩ ["A"] [])] := by decide +kernel
  have houtputs : outputs r.1 = [⟨"a/x_plain.rs"⟩] := by rw [houtcomes]; rfl
  have houtputs' : outputs r'.1 = [⟨"a/x[.rs"⟩] := by decide +kernel
  let again := lone.forInputs ["a/x.rs", "a/x_plain.rs"]
  have hagain : ∀ t, again.prepareIn t = (.ok [⟨"a/x.rs"⟩, ⟨"a/x_plain.rs"⟩], t) := fun _ => rfl
  have hfail : ∀ t, (unclosed.forInputs ["a/x.rs", "a/x[.rs"]).runIn t = (.fail .unresolved, t) :=
    fun _ => rfl
  have hmet : ∃ outcomes t₃, again.Ends r.2 [⟨"a/x.rs"⟩, ⟨"a/x_plain.rs"⟩] outcomes t₃ ∧
      (⟨"a/x_plain.rs"⟩, .nothing []) ∈ outcomes := by
    have hresult := result_of_ends hsep hends
    have hwritten : (⟨"a/x.rs"⟩, .written ⟨"a/x_plain.rs"⟩ ["A"] []) ∈ r.1 := by simp [houtcomes]
    exact exists_ends_nothing_of_refills hresult (by simp [houtputs]) (by decide)
      (refills_of_written hresult hsep List.mem_cons_self hwritten)
  exact ⟨⟨r.1, r.2, hprep, hsep, hends, houtputs, hagain r.2, hmet⟩,
    r'.1, r'.2, hprep', hsep', hends', houtputs', hfail r'.2⟩

end SecondRun

end PlainTwin
