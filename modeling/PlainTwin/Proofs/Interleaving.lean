import PlainTwin.Proofs.Workers

namespace PlainTwin

namespace Outcome

/-- The outcome but for the answer of the system to a file that cannot be read or written. -/
def kind : Outcome → Outcome
  | failed (.unreadable input _) => failed (.unreadable input .missing)
  | failed (.unwritable output _) => failed (.unwritable output .missing)
  | o => o

end Outcome

namespace Generate

def alone (g : Generate) (t : Tree) (input : FilePath) : Outcome :=
  ((g.process input : StateM Tree Outcome).run t).1

def WritesTo (g : Generate) (t : Tree) (input : FilePath) (l : Location) : Prop :=
  (∃ structs errors, g.alone t input = .written (g.output input) structs errors) ∧
    t.locate (g.output input) = .ok l

/-- No two files have their output at the same place, and no output stands where an input does. -/
structure Separate (g : Generate) (t : Tree) (inputs : List FilePath) : Prop where
  outputs : ∀ i ∈ inputs, ∀ j ∈ inputs, ∀ l, g.WritesTo t i l → g.WritesTo t j l →
    t.locate i = t.locate j
  inputs : ∀ i ∈ inputs, ∀ j ∈ inputs, ∀ l, g.WritesTo t i l → t.locate j ≠ .ok l

end Generate

namespace Workers

open Generate PlainTwin.Tree TreePlaces

inductive Phase where
  | waiting
  | holding (made : Generated)
  | opened (made : Generated)
  | ended (o : Outcome)

variable (g : Generate) (t₁ : Tree)

def fill (input : FilePath) (made : Generated) : FileProgram Outcome :=
  .ask (.write (g.output input) made.render.toUTF8) fun r => .done (written g input made r)

def Phase.rest (input : FilePath) : Phase → FileProgram Outcome
  | waiting => g.process input
  | holding made => .ask (.write (g.output input) .empty) fun
    | .error e => .done (written g input made (.error e))
    | .ok () => fill g input made
  | opened made => fill g input made
  | ended o => .done o

theorem rest_waiting (input : FilePath) : Phase.waiting.rest g input =
    .ask (.read input) fun r => match work input r with
      | .inl o => (Phase.ended o).rest g input
      | .inr made => (Phase.holding made).rest g input := by
  simp only [Phase.rest, process_eq, laidOut_program]
  refine congrArg (FileProgram.ask _) (funext fun r => ?_)
  rw [FileProgram.bind]
  cases work input r with
  | inl o => rfl
  | inr made =>
    refine congrArg (FileProgram.ask _) (funext fun r => ?_)
    rcases r with e | ⟨⟩ <;> rfl

theorem process_run (input : FilePath) (t : Tree) : (g.process input : StateM Tree Outcome) t =
    match work input (t.read input) with
    | .inl o => (o, t)
    | .inr made =>
      let r := attempt (·.write (g.output input) made.render.toUTF8) t
      (written g input made r.1, r.2) := by
  simp only [process_eq, laidOut_tree, pure_bind]
  change (match work input (t.read input) with
    | .inl o => _
    | .inr made => _ : StateM Tree Outcome) t = _
  cases work input (t.read input) <;> rfl

theorem alone_eq (input : FilePath) : g.alone t₁ input = match work input (t₁.read input) with
    | .inl o => o
    | .inr made =>
      written g input made (attempt (·.write (g.output input) made.render.toUTF8) t₁).1 := by
  change ((g.process input : StateM Tree Outcome) t₁).1 = _
  rw [process_run]
  cases work input (t₁.read input) <;> rfl

/-- The input has something to be written at `l`. -/
structure Writes (input : FilePath) (made : Generated) (l : Location) : Prop where
  work : work input (t₁.read input) = .inr made
  place : t₁.locate (g.output input) = .ok l
  free : t₁.node? l ≠ some .dir

variable {g t₁}

theorem work_ne_written (input : FilePath) (r : Except FileError ByteArray) (output : FilePath)
    (structs : List String) (errors : List GenerateError) :
    work input r ≠ .inl (.written output structs errors) := by
  unfold work
  repeat' split
  all_goals simp

theorem Writes.write_eq {input : FilePath} {made : Generated} {l : Location}
    (h : Writes g t₁ input made l) {t : Tree} (hd : SameDirs t₁ t) (bytes : ByteArray) :
    attempt (·.write (g.output input) bytes) t = (.ok (), t.insert l (.file bytes)) := by
  have hw : t.write (g.output input) bytes = .ok (t.insert l (.file bytes)) :=
    write_eq_ok_iff.mpr
      ⟨l, (locate_eq_ok_iff hd).mp h.place, fun hn => h.free ((hd l).mpr hn), rfl⟩
  exact attempt_of_ok hw

theorem Writes.node?_insert {input : FilePath} {made : Generated} {l : Location}
    (h : Writes g t₁ input made l) {t : Tree} (hd : SameDirs t₁ t) (n : Node) (k : Location) :
    (t.insert l n).node? k = if k = l then some n else t.node? k := by
  have hfree : t.node? l ≠ some .dir := fun hn => h.free ((hd l).mpr hn)
  rw [TreePlaces.node?_insert (names_ne_nil hfree)]

theorem Writes.alone_eq {input : FilePath} {made : Generated} {l : Location}
    (h : Writes g t₁ input made l) :
    g.alone t₁ input = .written (g.output input) made.structs made.errors := by
  rw [Workers.alone_eq, h.work]
  dsimp only
  rw [h.write_eq fun _ => Iff.rfl]
  rfl

theorem Writes.read_ne_error {input : FilePath} {made : Generated} {l : Location}
    (h : Writes g t₁ input made l) (e : FileError) : t₁.read input ≠ .error e := by
  intro he
  have hwork := h.work
  rw [he] at hwork
  cases hwork

theorem exists_writes {input output : FilePath} {structs : List String}
    {errors : List GenerateError} (h : g.alone t₁ input = .written output structs errors) :
    ∃ made l, Writes g t₁ input made l ∧ output = g.output input ∧ structs = made.structs ∧
      errors = made.errors := by
  have ha := h
  rw [alone_eq] at ha
  cases hw : work input (t₁.read input) with
  | inl o =>
    rw [hw] at ha
    exact absurd (hw.trans (congrArg Sum.inl ha)) (work_ne_written input _ _ _ _)
  | inr made =>
    obtain ⟨e, he⟩ | ⟨l, hl, hfree, -⟩ := write_cases t₁ (g.output input)
    · have he : attempt (·.write (g.output input) made.render.toUTF8) t₁ = _ :=
        attempt_of_error (he _)
      rw [hw] at ha
      dsimp only at ha
      rw [he] at ha
      cases ha
    · have hwrites : Writes g t₁ input made l := ⟨hw, hl, hfree⟩
      rw [hwrites.alone_eq] at h
      cases h
      exact ⟨made, l, hwrites, rfl, rfl, rfl⟩

theorem writesTo_iff {input : FilePath} {l : Location} :
    g.WritesTo t₁ input l ↔ ∃ made, Writes g t₁ input made l := by
  constructor
  · rintro ⟨⟨structs, errors, ha⟩, hl⟩
    obtain ⟨made, k, hw, -⟩ := exists_writes ha
    obtain rfl : k = l := Except.ok.inj (hw.place.symm.trans hl)
    exact ⟨made, hw⟩
  · rintro ⟨made, h⟩
    exact ⟨⟨_, _, h.alone_eq⟩, h.place⟩

theorem exists_refusal {input : FilePath} {made : Generated}
    (hwork : work input (t₁.read input) = .inr made) (hno : ¬∃ l, Writes g t₁ input made l)
    {t : Tree} (hd : SameDirs t₁ t) :
    ∃ e, ∀ bytes, attempt (·.write (g.output input) bytes) t = (.error e, t) := by
  obtain ⟨e, he⟩ | ⟨l, hl, hn, -⟩ := write_cases t (g.output input)
  · exact ⟨e, fun bytes => attempt_of_error (he bytes)⟩
  · exact absurd ⟨l, hwork, (locate_eq_ok_iff hd).mpr hl, fun h => hn ((hd l).mp h)⟩ hno

theorem kind_of_refusal {input : FilePath} {made : Generated}
    (hwork : work input (t₁.read input) = .inr made) (hno : ¬∃ l, Writes g t₁ input made l)
    (e : FileError) : (written g input made (.error e)).kind = (g.alone t₁ input).kind := by
  obtain ⟨e', he'⟩ := exists_refusal hwork hno (t := t₁) fun _ => Iff.rfl
  simp only [alone_eq, hwork, he']
  rfl

def Phase.Fits (g : Generate) (t₁ : Tree) (input : FilePath) : Phase → Prop
  | waiting => True
  | holding made => work input (t₁.read input) = .inr made
  | opened made => ∃ l, Writes g t₁ input made l
  | ended o => o.kind = (g.alone t₁ input).kind

def Fills (g : Generate) (t₁ : Tree) (x : FilePath × Phase) (l : Location) : Prop :=
  ∃ made, x.2 = .opened made ∧ Writes g t₁ x.1 made l

/-- What is true of the workers at any time, in terms of the tree that they began with. -/
structure Sound (g : Generate) (t₁ : Tree) (inputs : List FilePath) (t : Tree)
    (phases : List (FilePath × Phase)) : Prop where
  order : phases.map Prod.fst = inputs
  fits : ∀ x ∈ phases, x.2.Fits g t₁ x.1
  tree : ∀ l, t.node? l = t₁.node? l ∨
    ∃ i ∈ inputs, ∃ made, Writes g t₁ i made l ∧ ∃ bytes, t.node? l = some (.file bytes)
  ended : ∀ x ∈ phases, ∀ o, x.2 = .ended o → ∀ made l, Writes g t₁ x.1 made l →
    t.node? l = some (.file made.render.toUTF8) ∨ ∃ y ∈ phases, Fills g t₁ y l

theorem Sound.sameDirs {inputs : List FilePath} {t : Tree} {phases : List (FilePath × Phase)}
    (h : Sound g t₁ inputs t phases) : SameDirs t₁ t := by
  intro l
  obtain heq | ⟨i, -, made, hw, bytes, hn⟩ := h.tree l
  · rw [heq]
  · simp [hn, hw.free]

theorem work_eq_inr {i j : FilePath} {r : Except FileError ByteArray} {made : Generated}
    (h : work i r = .inr made) : work j r = .inr made := by
  unfold work at h ⊢
  repeat' split at h
  all_goals simp_all

theorem read_eq_of_locate {t : Tree} {i j : FilePath} (h : t.locate i = t.locate j) :
    t.read i = t.read j := by
  simp only [Tree.read, Tree.find, h]

theorem Writes.made_eq {inputs : List FilePath} (hsep : g.Separate t₁ inputs) {i j : FilePath}
    (hi : i ∈ inputs) (hj : j ∈ inputs) {made made' : Generated} {l : Location}
    (h : Writes g t₁ i made l) (h' : Writes g t₁ j made' l) : made = made' := by
  have hfile := hsep.outputs i hi j hj l (writesTo_iff.mpr ⟨_, h⟩) (writesTo_iff.mpr ⟨_, h'⟩)
  have hw := work_eq_inr (j := j) h.work
  rw [read_eq_of_locate hfile, h'.work] at hw
  exact (Sum.inr.inj hw).symm

theorem mem_replaced {α : Type} {before after : List α} {x a : α} (b : α)
    (hx : x ∈ before ++ a :: after) : x = a ∨ x ∈ before ++ b :: after := by
  simp only [List.mem_append, List.mem_cons] at hx ⊢
  rcases hx with hx | rfl | hx
  · exact .inr (.inl hx)
  · exact .inl rfl
  · exact .inr (.inr (.inr hx))

section Step

variable {inputs : List FilePath} (hsep : g.Separate t₁ inputs) {t t' : Tree} {input : FilePath}
  {phase phase' : Phase} {before after : List (FilePath × Phase)}
  (h : Sound g t₁ inputs t (before ++ (input, phase) :: after))

include h in
theorem Sound.mem_inputs {x : FilePath × Phase} (hx : x ∈ before ++ (input, phase) :: after) :
    x.1 ∈ inputs := by
  rw [← h.order]
  exact List.mem_map_of_mem hx

include h in
theorem Sound.self_mem : input ∈ inputs :=
  h.mem_inputs (List.mem_append_right before List.mem_cons_self)

include hsep h in
/-- One worker goes on. Only the file at its own place may change, and it does not leave that file
before it is filled. -/
theorem Sound.advance (hfits : phase'.Fits g t₁ input)
    (htree : ∀ l, t'.node? l = t.node? l ∨
      ∃ made, Writes g t₁ input made l ∧ ∃ bytes, t'.node? l = some (.file bytes) ∧
        (phase' = .opened made ∨ bytes = made.render.toUTF8))
    (hfilled : ∀ l, Fills g t₁ (input, phase) l →
      ∃ made, Writes g t₁ input made l ∧ t'.node? l = some (.file made.render.toUTF8))
    (hended : ∀ o, phase' = .ended o → ∀ made l, Writes g t₁ input made l →
      t'.node? l = some (.file made.render.toUTF8)) :
    Sound g t₁ inputs t' (before ++ (input, phase') :: after) where
  order := by simpa using h.order
  fits x hx := by
    obtain rfl | hx := mem_replaced (input, phase) hx
    · exact hfits
    · exact h.fits x hx
  tree l := by
    obtain heq | ⟨made, hw, bytes, hn, -⟩ := htree l
    · rw [heq]
      exact h.tree l
    · exact .inr ⟨input, h.self_mem, made, hw, bytes, hn⟩
  ended x hx o ho made l hw := by
    obtain rfl | hx := mem_replaced (input, phase) hx
    · exact .inl (hended o ho made l hw)
    · have hmine : ∀ made', Writes g t₁ input made' l → made' = made := fun made' hw' =>
        hw'.made_eq hsep h.self_mem (h.mem_inputs hx) hw
      obtain hn | ⟨y, hy, hfills⟩ := h.ended x hx o ho made l hw
      · obtain heq | ⟨made', hw', bytes, hn', hp | rfl⟩ := htree l
        · exact .inl (heq.trans hn)
        · exact .inr ⟨(input, phase'), by simp, made', hp, hw'⟩
        · exact .inl (hmine made' hw' ▸ hn')
      · obtain rfl | hy := mem_replaced (input, phase') hy
        · obtain ⟨made', hw', hn'⟩ := hfilled l hfills
          exact .inl (hmine made' hw' ▸ hn')
        · exact .inr ⟨y, hy, hfills⟩

include hsep h in
theorem Sound.leave (hfits : phase'.Fits g t₁ input) (hidle : ∀ made, phase ≠ .opened made)
    (hended : ∀ o, phase' = .ended o → ∀ made l, ¬ Writes g t₁ input made l) :
    Sound g t₁ inputs t (before ++ (input, phase') :: after) := by
  refine h.advance hsep hfits (fun _ => .inl rfl) ?_ ?_
  · rintro l ⟨made, hopened, -⟩
    exact absurd hopened (hidle made)
  · intro o ho made l hw
    exact absurd hw (hended o ho made l)

include hsep h in
theorem Sound.read_cases : t.read input = t₁.read input ∨
    (∃ e, t.read input = .error e) ∧ ∃ e, t₁.read input = .error e := by
  obtain ⟨l, hl, hl'⟩ | herrors := locate_cases h.sameDirs input
  · obtain heq | ⟨i, hi, made, hw, -⟩ := h.tree l
    · exact .inl (read_eq_of_node? hl' hl heq)
    · exact absurd hl (hsep.inputs i hi input h.self_mem l (writesTo_iff.mpr ⟨made, hw⟩))
  · exact .inr herrors

end Step

theorem Writes.unique {input : FilePath} {made made' : Generated} {l l' : Location}
    (h : Writes g t₁ input made l) (h' : Writes g t₁ input made' l') : made = made' ∧ l = l' :=
  ⟨Sum.inr.inj (h.work.symm.trans h'.work), Except.ok.inj (h.place.symm.trans h'.place)⟩

section Steps

variable {inputs : List FilePath} (hsep : g.Separate t₁ inputs) {t : Tree} {input : FilePath}
  {made : Generated} {before after : List (FilePath × Phase)}
include hsep

theorem Sound.read (h : Sound g t₁ inputs t (before ++ (input, .waiting) :: after)) :
    Sound g t₁ inputs t (before ++ (input, match work input (t.read input) with
      | .inl o => .ended o
      | .inr made => .holding made) :: after) := by
  have hidle : ∀ made, Phase.waiting ≠ .opened made := by
    intro made hopened
    cases hopened
  obtain heq | ⟨⟨e, he⟩, e', he'⟩ := h.read_cases hsep
  · rw [heq]
    cases hw : work input (t₁.read input) with
    | inl o =>
      refine h.leave hsep ?_ hidle ?_
      · simp only [Phase.Fits, alone_eq, hw]
      · intro _ _ made l hwrites
        cases hw.symm.trans hwrites.work
    | inr made =>
      refine h.leave hsep hw hidle ?_
      intro o ho
      cases ho
  · rw [he]
    refine h.leave hsep ?_ hidle ?_
    · simp only [Phase.Fits, alone_eq, he']
      rfl
    · intro _ _ made l hwrites
      exact hwrites.read_ne_error e' he'

theorem Sound.empty (h : Sound g t₁ inputs t (before ++ (input, .holding made) :: after)) :
    let r := attempt (·.write (g.output input) .empty) t
    Sound g t₁ inputs r.2 (before ++ (input, match r.1 with
      | .error e => .ended (written g input made (.error e))
      | .ok () => .opened made) :: after) := by
  have hwork : work input (t₁.read input) = .inr made :=
    h.fits (input, .holding made) (List.mem_append_right before List.mem_cons_self)
  have hidle : ∀ made', Phase.holding made ≠ .opened made' := by
    intro made' hopened
    cases hopened
  by_cases hplace : ∃ l, Writes g t₁ input made l
  · obtain ⟨l, hw⟩ := hplace
    rw [hw.write_eq h.sameDirs]
    refine h.advance hsep ⟨l, hw⟩ (fun k => ?_) ?_ ?_
    · rw [hw.node?_insert h.sameDirs]
      split
      case isTrue hk => exact .inr ⟨made, hk ▸ hw, _, rfl, .inl rfl⟩
      case isFalse => exact .inl rfl
    · rintro k ⟨made', hopened, -⟩
      exact absurd hopened (hidle made')
    · intro o ho
      cases ho
  · obtain ⟨e, he⟩ := exists_refusal hwork hplace h.sameDirs
    rw [he]
    refine h.leave hsep (kind_of_refusal hwork hplace e) hidle ?_
    intro _ _ made' l hw
    obtain rfl : made = made' := Sum.inr.inj (hwork.symm.trans hw.work)
    exact absurd ⟨l, hw⟩ hplace

theorem Sound.fill (h : Sound g t₁ inputs t (before ++ (input, .opened made) :: after)) :
    let r := attempt (·.write (g.output input) made.render.toUTF8) t
    Sound g t₁ inputs r.2 (before ++ (input, .ended (written g input made r.1)) :: after) := by
  obtain ⟨l, hw⟩ : ∃ l, Writes g t₁ input made l :=
    h.fits (input, .opened made) (List.mem_append_right before List.mem_cons_self)
  have hnode := hw.node?_insert h.sameDirs (.file made.render.toUTF8)
  rw [hw.write_eq h.sameDirs]
  refine h.advance hsep ?_ (fun k => ?_) ?_ ?_
  · simp only [Phase.Fits, hw.alone_eq]
    rfl
  · rw [hnode]
    split
    case isTrue hk => exact .inr ⟨made, hk ▸ hw, _, rfl, .inr rfl⟩
    case isFalse => exact .inl rfl
  · rintro k ⟨made', -, hw'⟩
    obtain ⟨rfl, rfl⟩ := hw.unique hw'
    exact ⟨made, hw, (hnode l).trans (if_pos rfl)⟩
  · intro _ _ made' k hw'
    obtain ⟨rfl, rfl⟩ := hw.unique hw'
    exact (hnode l).trans (if_pos rfl)

end Steps

inductive Advances (g : Generate) (input : FilePath) : Tree → Phase → Tree → Phase → Prop
  | read (t : Tree) : Advances g input t .waiting t (match work input (t.read input) with
      | .inl o => .ended o
      | .inr made => .holding made)
  | empty (t : Tree) (made : Generated) :
      Advances g input t (.holding made) (attempt (·.write (g.output input) .empty) t).2
        (match (attempt (·.write (g.output input) .empty) t).1 with
          | .error e => .ended (written g input made (.error e))
          | .ok () => .opened made)
  | fill (t : Tree) (made : Generated) :
      Advances g input t (.opened made)
        (attempt (·.write (g.output input) made.render.toUTF8) t).2
        (.ended (written g input made
          (attempt (·.write (g.output input) made.render.toUTF8) t).1))

def job (g : Generate) (x : FilePath × Phase) : FilePath × FileProgram Outcome :=
  (x.1, x.2.rest g x.1)

theorem workers_eq (t : Tree) (inputs : List FilePath) :
    g.workers t inputs = ⟨t, (inputs.map fun input => (input, Phase.waiting)).map (job g)⟩ := by
  simp only [Generate.workers, List.map_map]
  rfl

theorem exists_advances_of_step {t : Tree} {phases : List (FilePath × Phase)} {c : Workers}
    (h : Step ⟨t, phases.map (job g)⟩ c) : ∃ before input phase after t' phase',
      phases = before ++ (input, phase) :: after ∧ Advances g input t phase t' phase' ∧
        c = ⟨t', (before ++ (input, phase') :: after).map (job g)⟩ := by
  generalize hc : (⟨t, phases.map (job g)⟩ : Workers) = c₀ at h
  obtain ⟨t, before, after, input, op, next⟩ := h
  obtain ⟨rfl, hjobs⟩ := Workers.mk.inj hc
  obtain ⟨pre, post, rfl, rfl, hpost⟩ := List.map_eq_append_iff.mp hjobs
  obtain ⟨⟨i, phase⟩, post, rfl, hhead, rfl⟩ := List.map_eq_cons_iff.mp hpost
  obtain ⟨rfl, hrest⟩ := Prod.mk.inj hhead
  cases phase with
  | waiting =>
    rw [rest_waiting] at hrest
    cases hrest
    refine ⟨pre, i, _, post, _, _, rfl, .read t, ?_⟩
    simp only [FileOp.perform, Files.read, List.map_append, List.map_cons, job]
    cases work i (t.read i) <;> rfl
  | holding made =>
    cases hrest
    refine ⟨pre, i, _, post, _, _, rfl, .empty t made, ?_⟩
    simp only [FileOp.perform, Files.write, List.map_append, List.map_cons, job]
    rcases (attempt (·.write (g.output i) .empty) t).1 with e | ⟨⟩ <;> rfl
  | opened made =>
    cases hrest
    refine ⟨pre, i, _, post, _, _, rfl, .fill t made, ?_⟩
    simp only [FileOp.perform, Files.write, List.map_append, List.map_cons, job]
    rfl
  | ended o => cases hrest

theorem step_of_advances {t t' : Tree} {phases : List (FilePath × Phase)} {k : Nat}
    {input : FilePath} {phase phase' : Phase} (hk : phases[k]? = some (input, phase))
    (h : Advances g input t phase t' phase') :
    Step ⟨t, phases.map (job g)⟩ ⟨t', (phases.set k (input, phase')).map (job g)⟩ := by
  have hjob : (phases.map (job g))[k]? = some (job g (input, phase)) := by
    rw [List.getElem?_map, hk]
    rfl
  rw [List.map_set]
  cases h with
  | read =>
    rw [job, rest_waiting] at hjob
    have hstep := step_set t hjob
    simp only [FileOp.perform, Files.read] at hstep
    rw [job]
    cases hwork : work input (t.read input) <;> simpa only [hwork] using hstep
  | empty made =>
    have hstep := step_set t hjob
    simp only [FileOp.perform, Files.write] at hstep
    rw [job]
    rcases hanswer : (attempt (·.write (g.output input) .empty) t).1 with e | ⟨⟩ <;>
      rwa [hanswer] at hstep
  | fill made => exact step_set t hjob

theorem eq_ended {input : FilePath} {phase : Phase} {o : Outcome}
    (h : phase.rest g input = .done o) : phase = .ended o := by
  cases phase with
  | waiting =>
    rw [rest_waiting] at h
    cases h
  | holding made => cases h
  | opened made => cases h
  | ended o' => rw [FileProgram.done.inj h]

theorem phases_of_done {outcomes : List (FilePath × Outcome)} {phases : List (FilePath × Phase)}
    (h : phases.map (job g) = outcomes.map fun (input, o) => (input, .done o)) :
    phases = outcomes.map fun (input, o) => (input, .ended o) := by
  induction outcomes generalizing phases with
  | nil => exact List.map_eq_nil_iff.mp h
  | cons x outcomes ih =>
    obtain ⟨⟨i, phase⟩, rest, rfl, hhead, hrest⟩ := List.map_eq_cons_iff.mp h
    obtain ⟨rfl, hdone⟩ := Prod.mk.inj hhead
    obtain rfl : phase = .ended x.2 := eq_ended hdone
    rw [ih hrest]
    rfl

theorem invariant_of_ends {I : Tree → List (FilePath × Phase) → Prop} {inputs : List FilePath}
    {outcomes : List (FilePath × Outcome)} {t₂ : Tree}
    (hstart : I t₁ (inputs.map fun input => (input, .waiting)))
    (hstep : ∀ t before input phase after t' phase', I t (before ++ (input, phase) :: after) →
      Advances g input t phase t' phase' → I t' (before ++ (input, phase') :: after))
    (h : g.Ends t₁ inputs outcomes t₂) : I t₂ (outcomes.map fun (input, o) => (input, .ended o)) := by
  have hsteps : ∀ c, Steps (g.workers t₁ inputs) c →
      ∃ phases, c.jobs = phases.map (job g) ∧ I c.tree phases := by
    intro c hc
    induction hc with
    | refl => exact ⟨_, by rw [workers_eq], hstart⟩
    | @tail c c' _ hcc ih =>
      obtain ⟨phases, hjobs, hI⟩ := ih
      obtain ⟨t, jobs⟩ := c
      obtain rfl : jobs = phases.map (job g) := hjobs
      obtain ⟨before, input, phase, after, t', phase', rfl, hadv, rfl⟩ := exists_advances_of_step hcc
      exact ⟨_, rfl, hstep _ _ _ _ _ _ _ hI hadv⟩
  obtain ⟨phases, hjobs, hI⟩ := hsteps _ h
  rw [← phases_of_done hjobs.symm]
  exact hI

theorem sound_waiting (inputs : List FilePath) :
    Sound g t₁ inputs t₁ (inputs.map fun input => (input, .waiting)) := by
  refine ⟨?_, ?_, fun l => .inl rfl, ?_⟩
  · rw [List.map_map]
    exact List.map_id inputs
  · intro x hx
    obtain ⟨i, -, rfl⟩ := List.mem_map.mp hx
    trivial
  · intro x hx o ho
    obtain ⟨i, -, rfl⟩ := List.mem_map.mp hx
    cases ho

theorem Sound.step {inputs : List FilePath} (hsep : g.Separate t₁ inputs) {t t' : Tree}
    {before after : List (FilePath × Phase)} {input : FilePath} {phase phase' : Phase}
    (h : Sound g t₁ inputs t (before ++ (input, phase) :: after))
    (hadv : Advances g input t phase t' phase') :
    Sound g t₁ inputs t' (before ++ (input, phase') :: after) := by
  cases hadv with
  | read => exact h.read hsep
  | empty => exact h.empty hsep
  | fill => exact h.fill hsep

structure Result (g : Generate) (t₁ : Tree) (inputs : List FilePath)
    (outcomes : List (FilePath × Outcome)) (t₂ : Tree) : Prop where
  outcomes : outcomes.map (fun x => (x.1, x.2.kind)) =
    inputs.map fun input => (input, (g.alone t₁ input).kind)
  dirs : SameDirs t₁ t₂
  output : ∀ i ∈ inputs, ∀ made l, Writes g t₁ i made l →
    t₂.node? l = some (.file made.render.toUTF8)
  others : ∀ l, (∀ i ∈ inputs, ¬ g.WritesTo t₁ i l) → t₂.node? l = t₁.node? l

theorem result_of_ends {inputs : List FilePath} (hsep : g.Separate t₁ inputs)
    {outcomes : List (FilePath × Outcome)} {t₂ : Tree} (h : g.Ends t₁ inputs outcomes t₂) :
    Result g t₁ inputs outcomes t₂ := by
  have hsound : Sound g t₁ inputs t₂ (outcomes.map fun (input, o) => (input, .ended o)) :=
    invariant_of_ends (sound_waiting inputs) (fun _ _ _ _ _ _ _ => Sound.step hsep) h
  have hinputs : inputs = outcomes.map Prod.fst := by
    rw [← hsound.order, List.map_map]
    rfl
  refine ⟨?_, hsound.sameDirs, ?_, ?_⟩
  · rw [hinputs, List.map_map]
    refine List.map_congr_left fun x hx => ?_
    exact congrArg (Prod.mk x.1) (hsound.fits (x.1, .ended x.2) (List.mem_map_of_mem hx))
  · intro i hi made l hw
    rw [hinputs] at hi
    obtain ⟨x, hx, rfl⟩ := List.mem_map.mp hi
    obtain hn | ⟨y, hy, made', hopened, -⟩ :=
      hsound.ended (x.1, .ended x.2) (List.mem_map_of_mem hx) _ rfl made l hw
    · exact hn
    · obtain ⟨z, -, rfl⟩ := List.mem_map.mp hy
      cases hopened
  · intro l hno
    obtain heq | ⟨i, hi, made, hw, -⟩ := hsound.tree l
    · exact heq
    · exact absurd (writesTo_iff.mpr ⟨made, hw⟩) (hno i hi)

end Workers

end PlainTwin
