import PlainTwin.Proofs.Interleaving
import PlainTwin.Proofs.Preparation

namespace PlainTwin

abbrev Generate.runIn (g : Generate) (t : Tree) : Report × Tree :=
  (g.run : StateM Tree Report).run t

namespace OutputFiles

open Generate PlainTwin.Tree TreePlaces Workers Preparation

theorem runIn_eq (g : Generate) (t : Tree) : g.runIn t = match g.prepareIn t with
    | (.ok inputs, t₁) => (report (g.inOrder t₁ inputs).1, (g.inOrder t₁ inputs).2)
    | (.error e, t₁) => (.fail e, t₁) := by
  unfold Generate.runIn Generate.run
  rw [StateT.run_bind]
  rcases hprep : g.prepareIn t with ⟨(e | inputs), t₁⟩
  · have hrun : StateT.run (g.prepare : ExceptT CommandError (StateM Tree) (List FilePath)).run t =
        pure (.error e, t₁) := hprep
    rw [hrun]
    rfl
  · have hrun : StateT.run (g.prepare : ExceptT CommandError (StateM Tree) (List FilePath)).run t =
        pure (.ok inputs, t₁) := hprep
    rw [hrun]
    rfl

theorem run_eq {g : Generate} {t t₁ : Tree} {inputs : List FilePath}
    (hprep : g.prepareIn t = (.ok inputs, t₁)) :
    ∃ outcomes t₂, g.Ends t₁ inputs outcomes t₂ ∧ g.runIn t = (report outcomes, t₂) := by
  refine ⟨_, _, ends_inOrder g inputs t₁, ?_⟩
  rw [runIn_eq, hprep]

theorem exists_source {input : FilePath} {r : Except FileError ByteArray} {made : Generated}
    (h : work input r = .inr made) : ∃ bytes text, r = .ok bytes ∧
      String.fromUTF8? bytes = some text ∧ Generated.ofText? text = some made := by
  cases r with
  | error e => cases h
  | ok bytes =>
    cases htext : String.fromUTF8? bytes with
    | none => simp [work, htext] at h
    | some text =>
      cases hmade : Generated.ofText? text with
      | none => simp [work, htext, hmade] at h
      | some made' =>
        simp only [work, htext, hmade] at h
        split at h
        · cases h
        · split at h
          · cases h
          · cases h
            exact ⟨bytes, text, rfl, htext, hmade⟩

theorem eq_of_kind_eq_written {o : Outcome} {output : FilePath} {structs : List String}
    {errors : List GenerateError} (h : o.kind = .written output structs errors) :
    o = .written output structs errors := by
  cases o with
  | failed e => cases e <;> cases h
  | written | nothing | skipped => exact h

section Result

variable {g : Generate} {t₁ t₂ : Tree} {inputs : List FilePath}
  {outcomes : List (FilePath × Outcome)} (h : Result g t₁ inputs outcomes t₂)
include h

theorem written_of_mem {input output : FilePath} {structs : List String}
    {errors : List GenerateError} (hmem : (input, .written output structs errors) ∈ outcomes) :
    ∃ made l, Writes g t₁ input made l ∧ output = g.output input ∧ structs = made.structs ∧
      errors = made.errors ∧ t₂.read output = .ok made.render.toUTF8 := by
  have hmem : (input, (.written output structs errors : Outcome)) ∈
      inputs.map fun i => (i, (g.alone t₁ i).kind) := by
    rw [← h.outcomes]
    exact List.mem_map.mpr ⟨_, hmem, rfl⟩
  obtain ⟨i, hi, heq⟩ := List.mem_map.mp hmem
  obtain ⟨rfl, hkind⟩ := Prod.mk.inj heq
  obtain ⟨made, l, hw, rfl, hs, he⟩ := exists_writes (eq_of_kind_eq_written hkind)
  exact ⟨made, l, hw, rfl, hs, he, read_eq_ok_iff.mpr
    ⟨l, (locate_eq_ok_iff h.dirs).mp hw.place, h.output i hi made l hw⟩⟩

theorem order_of_result : outcomes.map Prod.fst = inputs := by
  have hfst := congrArg (List.map Prod.fst) h.outcomes
  rw [List.map_map, List.map_map] at hfst
  exact hfst.trans (List.map_id inputs)

theorem result_unique {t₂' : Tree} {outcomes' : List (FilePath × Outcome)}
    (h' : Result g t₁ inputs outcomes' t₂') : (∀ l, t₂'.node? l = t₂.node? l) ∧
      outcomes'.map (fun x => (x.1, x.2.kind)) = outcomes.map fun x => (x.1, x.2.kind) := by
  refine ⟨fun l => ?_, h'.outcomes.trans h.outcomes.symm⟩
  by_cases hl : ∃ i ∈ inputs, g.WritesTo t₁ i l
  · obtain ⟨i, hi, hw⟩ := hl
    obtain ⟨made, hw⟩ := writesTo_iff.mp hw
    rw [h.output i hi made l hw, h'.output i hi made l hw]
  · have hno : ∀ i ∈ inputs, ¬ g.WritesTo t₁ i l := fun i hi hw => hl ⟨i, hi, hw⟩
    rw [h.others l hno, h'.others l hno]

end Result

/-- Workers that process their inputs at the same time, in whatever order they get to read and to
write, lose nothing if no two files have one output and no output is an input: what is reported as
written is there, made from what the input was before, no input changes, and neither the files nor
the outcomes depend on the order. -/
theorem outputs_of_run {g : Generate} {t t₁ : Tree} {inputs : List FilePath}
    (hprep : (g.prepare : ExceptT CommandError (StateM Tree) (List FilePath)).run t =
      (.ok inputs, t₁)) (hsep : g.Separate t₁ inputs) :
    (∃ outcomes t₂, g.Ends t₁ inputs outcomes t₂ ∧
      (g.run : StateM Tree Report).run t = (report outcomes, t₂)) ∧
    ∀ outcomes t₂, g.Ends t₁ inputs outcomes t₂ →
      outcomes.map Prod.fst = inputs ∧
      (∀ input output structs errors, (input, .written output structs errors) ∈ outcomes →
        output = g.output input ∧ ∃ l bytes text made, t₁.locate input = .ok l ∧
          t.node? l = some (.file bytes) ∧ String.fromUTF8? bytes = some text ∧
          Generated.ofText? text = some made ∧ structs = made.structs ∧ errors = made.errors ∧
          t₂.read output = .ok made.render.toUTF8) ∧
      (∀ input ∈ inputs, ∀ l bytes, t₁.locate input = .ok l →
        (t₂.node? l = some (.file bytes) ↔ t.node? l = some (.file bytes))) ∧
      ∀ outcomes' t₂', g.Ends t₁ inputs outcomes' t₂' → (∀ l, t₂'.node? l = t₂.node? l) ∧
        outcomes'.map (fun x => (x.1, x.2.kind)) = outcomes.map fun x => (x.1, x.2.kind) := by
  have hkeeps := keepsFiles_prepare g t
  rw [hprep] at hkeeps
  refine ⟨run_eq hprep, fun outcomes t₂ hends => ?_⟩
  have hresult := result_of_ends hsep hends
  refine ⟨order_of_result hresult, fun input output structs errors hmem => ?_,
    fun input hinput l bytes hl => ?_,
    fun outcomes' t₂' hends' => result_unique hresult (result_of_ends hsep hends')⟩
  · obtain ⟨made, k, hw, rfl, hs, he, hread⟩ := written_of_mem hresult hmem
    obtain ⟨bytes, text, hbytes, htext, hmade⟩ := exists_source hw.work
    obtain ⟨l, hl, hn⟩ := read_eq_ok_iff.mp hbytes
    exact ⟨rfl, l, bytes, text, made, hl, (hkeeps l bytes).mpr hn, htext, hmade, hs, he, hread⟩
  · have hno : ∀ i ∈ inputs, ¬ g.WritesTo t₁ i l := fun i hi hw => hsep.inputs i hi input hinput l hw hl
    rw [hresult.others l hno]
    exact (hkeeps l bytes).symm

def sourceOf (name : String) : String :=
  "pub struct " ++ name ++ "\x7b#[und(\"def\")]pub a:Und<u8>\x7d"

def namesakes : Tree := ⟨[
  (⟨.above 0, ["a"]⟩, .dir), (⟨.above 0, ["x.rs", "a"]⟩, .file (sourceOf "A").toUTF8),
  (⟨.above 0, ["b"]⟩, .dir), (⟨.above 0, ["x.rs", "b"]⟩, .file (sourceOf "BB").toUTF8)]⟩

def besides : Generate := { inputs := ["a/x.rs", "b/x.rs"], noLayout := true }

theorem separate_of_places {g : Generate} {t : Tree} {inputs : List FilePath}
    (h : ∀ i ∈ inputs, ∀ j ∈ inputs,
      ((t.locate (g.output i)).toOption = (t.locate (g.output j)).toOption → i = j) ∧
        (t.locate (g.output i)).toOption ≠ (t.locate j).toOption) : g.Separate t inputs := by
  refine ⟨fun i hi j hj l hil hjl => ?_, fun i hi j hj l hil hjl => (h i hi j hj).2 ?_⟩
  · rw [(h i hi j hj).1 (by rw [hil.2, hjl.2])]
  · rw [hil.2, hjl]

theorem separate_besides : besides.Separate namesakes [⟨"a/x.rs"⟩, ⟨"b/x.rs"⟩] :=
  separate_of_places (by decide +kernel)

theorem outputs_of_namesakes : ∃ outcomes t₂,
    besides.Ends namesakes [⟨"a/x.rs"⟩, ⟨"b/x.rs"⟩] outcomes t₂ ∧
    (report outcomes).lines =
      ["ok a/x.rs → a/x_plain.rs (A)", "ok b/x.rs → b/x_plain.rs (BB)"] ∧
    ∀ input output structs errors, (input, .written output structs errors) ∈ outcomes →
      ∃ l bytes text made, namesakes.locate input = .ok l ∧
        namesakes.node? l = some (.file bytes) ∧ String.fromUTF8? bytes = some text ∧
        Generated.ofText? text = some made ∧ t₂.read output = .ok made.render.toUTF8 := by
  have hprep : (besides.prepare : ExceptT CommandError (StateM Tree) (List FilePath)).run namesakes =
      (.ok [⟨"a/x.rs"⟩, ⟨"b/x.rs"⟩], namesakes) := by rfl
  obtain ⟨⟨outcomes, t₂, hends, hrun⟩, hall⟩ := outputs_of_run hprep separate_besides
  have hlines : ((besides.run : StateM Tree Report).run namesakes).1.lines =
      ["ok a/x.rs → a/x_plain.rs (A)", "ok b/x.rs → b/x_plain.rs (BB)"] := by decide +kernel
  rw [hrun] at hlines
  refine ⟨outcomes, t₂, hends, hlines, fun input output structs errors hmem => ?_⟩
  obtain ⟨-, l, bytes, text, made, hl, hn, htext, hmade, -, -, hread⟩ :=
    (hall outcomes t₂ hends).2.1 input output structs errors hmem
  exact ⟨l, bytes, text, made, hl, hn, htext, hmade, hread⟩

def together : Generate :=
  { inputs := ["a/x.rs", "b/x.rs"], outDir := some ⟨"out"⟩, noLayout := true }

def inPlace : Generate := { inputs := ["a/x.rs"], suffix := "", noLayout := true }

/-- With one directory for both outputs, one of them is lost. Without a suffix, the output takes the
place of its input. -/
theorem output_lost : ∃ inputs t₁ outcomes t₂,
    (together.prepare : ExceptT CommandError (StateM Tree) (List FilePath)).run namesakes =
      (.ok inputs, t₁) ∧ inputs.Nodup ∧ together.Ends t₁ inputs outcomes t₂ ∧
    outcomes = [(⟨"a/x.rs"⟩, .written ⟨"out/x_plain.rs"⟩ ["A"] []),
      (⟨"b/x.rs"⟩, .written ⟨"out/x_plain.rs"⟩ ["BB"] [])] ∧
    (∃ made ∈ Generated.ofText? (sourceOf "A"),
      (t₂.read ⟨"out/x_plain.rs"⟩).toOption ≠ some made.render.toUTF8) ∧
    ∃ outcomes t₂, inPlace.Ends namesakes [⟨"a/x.rs"⟩] outcomes t₂ ∧
      (t₂.read ⟨"a/x.rs"⟩).toOption ≠ (namesakes.read ⟨"a/x.rs"⟩).toOption := by
  let t₁ := ((together.prepare : ExceptT CommandError (StateM Tree) (List FilePath)).run namesakes).2
  have hprep : (together.prepare : ExceptT CommandError (StateM Tree) (List FilePath)).run namesakes =
      (.ok [⟨"a/x.rs"⟩, ⟨"b/x.rs"⟩], t₁) := by rfl
  have houtcomes : (together.inOrder t₁ [⟨"a/x.rs"⟩, ⟨"b/x.rs"⟩]).1 =
      [(⟨"a/x.rs"⟩, .written ⟨"out/x_plain.rs"⟩ ["A"] []),
        (⟨"b/x.rs"⟩, .written ⟨"out/x_plain.rs"⟩ ["BB"] [])] := by decide +kernel
  have hlost : ∃ made ∈ Generated.ofText? (sourceOf "A"),
      ((together.inOrder t₁ [⟨"a/x.rs"⟩, ⟨"b/x.rs"⟩]).2.read ⟨"out/x_plain.rs"⟩).toOption ≠
        some made.render.toUTF8 := by decide +kernel
  have hplace : ((inPlace.inOrder namesakes [⟨"a/x.rs"⟩]).2.read ⟨"a/x.rs"⟩).toOption ≠
      (namesakes.read ⟨"a/x.rs"⟩).toOption := by decide +kernel
  exact ⟨_, t₁, _, _, hprep, by decide, ends_inOrder together _ t₁, houtcomes, hlost, _, _,
    ends_inOrder inPlace _ namesakes, hplace⟩

end OutputFiles

end PlainTwin
