import PlainTwin.Proofs.Interleaving

namespace PlainTwin

def Generate.UpToDate (g : Generate) (t : Tree) (inputs : List FilePath) : Prop :=
  ∀ i ∈ inputs, ∀ made l, Workers.Writes g t i made l →
    t.node? l = some (.file made.render.toUTF8)

/-- The file that a path leads to is an output of some input. -/
def Generate.Refills (g : Generate) (t : Tree) (inputs : List FilePath) (p : FilePath) : Prop :=
  ∃ i ∈ inputs, ∃ l, g.WritesTo t i l ∧ t.locate p = .ok l

namespace Workers

open Generate PlainTwin.Tree TreePlaces

variable {g : Generate} {t₁ : Tree}

def Phase.Suits (g : Generate) (t₁ : Tree) (inputs : List FilePath) (input : FilePath) :
    Phase → Prop
  | ended o => o.kind = (g.alone t₁ input).kind ∨ o = .nothing [] ∧ g.Refills t₁ inputs input
  | phase => phase.Fits g t₁ input

/-- The tree is as before but for files that are empty, each of which a worker is about to fill. -/
structure Restoring (g : Generate) (t₁ : Tree) (inputs : List FilePath) (t : Tree)
    (phases : List (FilePath × Phase)) : Prop where
  order : phases.map Prod.fst = inputs
  suits : ∀ x ∈ phases, x.2.Suits g t₁ inputs x.1
  tree : ∀ l, t.node? l = t₁.node? l ∨
    t.node? l = some (.file .empty) ∧ ∃ y ∈ phases, Fills g t₁ y l

theorem Restoring.sameDirs {inputs : List FilePath} {t : Tree} {phases : List (FilePath × Phase)}
    (h : Restoring g t₁ inputs t phases) : SameDirs t₁ t := by
  intro l
  obtain heq | ⟨hn, y, -, made, -, hw⟩ := h.tree l
  · rw [heq]
  · simp [hn, hw.free]

theorem work_empty (input : FilePath) : work input (.ok .empty) = .inl (.nothing []) := by
  rfl

section Step

variable {inputs : List FilePath} {t t' : Tree} {input : FilePath} {phase phase' : Phase}
  {before after : List (FilePath × Phase)}
  (h : Restoring g t₁ inputs t (before ++ (input, phase) :: after))
include h

theorem Restoring.advance (hsuits : phase'.Suits g t₁ inputs input)
    (htree : ∀ l, t'.node? l = t.node? l ∧ ¬Fills g t₁ (input, phase) l ∨
      t'.node? l = t₁.node? l ∨ t'.node? l = some (.file .empty) ∧ Fills g t₁ (input, phase') l) :
    Restoring g t₁ inputs t' (before ++ (input, phase') :: after) where
  order := by simpa using h.order
  suits x hx := by
    obtain rfl | hx := mem_replaced (input, phase) hx
    · exact hsuits
    · exact h.suits x hx
  tree l := by
    obtain ⟨heq, hno⟩ | hback | ⟨hempty, hfills⟩ := htree l
    · rw [heq]
      obtain hn | ⟨hn, y, hy, hfills⟩ := h.tree l
      · exact .inl hn
      · obtain rfl | hy := mem_replaced (input, phase') hy
        · exact absurd hfills hno
        · exact .inr ⟨hn, y, hy, hfills⟩
    · exact .inl hback
    · exact .inr ⟨hempty, (input, phase'), by simp, hfills⟩

theorem Restoring.leave (hsuits : phase'.Suits g t₁ inputs input)
    (hidle : ∀ made, phase ≠ .opened made) :
    Restoring g t₁ inputs t (before ++ (input, phase') :: after) := by
  apply h.advance hsuits
  intro l
  apply Or.inl
  refine ⟨rfl, ?_⟩
  rintro ⟨made, hopened, -⟩
  exact hidle made hopened

theorem Restoring.read_cases : t.read input = t₁.read input ∨
    t.read input = .ok .empty ∧ g.Refills t₁ inputs input ∨
    (∃ e, t.read input = .error e) ∧ ∃ e, t₁.read input = .error e := by
  obtain ⟨l, hl, hl'⟩ | herrors := locate_cases h.sameDirs input
  · obtain heq | ⟨hempty, y, hy, made, -, hw⟩ := h.tree l
    · exact .inl (read_eq_of_node? hl' hl heq)
    · have hinput : y.1 ∈ inputs := by
        rw [← h.order]
        exact List.mem_map_of_mem hy
      exact .inr (.inl ⟨read_eq_ok_iff.mpr ⟨l, hl', hempty⟩, y.1, hinput, l,
        writesTo_iff.mpr ⟨made, hw⟩, hl⟩)
  · exact .inr (.inr herrors)

end Step

section Steps

variable {inputs : List FilePath} {t : Tree} {input : FilePath} {made : Generated}
  {before after : List (FilePath × Phase)}

theorem Restoring.read (h : Restoring g t₁ inputs t (before ++ (input, .waiting) :: after)) :
    Restoring g t₁ inputs t (before ++ (input, match work input (t.read input) with
      | .inl o => .ended o
      | .inr made => .holding made) :: after) := by
  refine h.leave ?_ fun made hopened => by cases hopened
  obtain heq | ⟨hempty, hrefills⟩ | ⟨⟨e, he⟩, e', he'⟩ := h.read_cases
  · rw [heq]
    cases hw : work input (t₁.read input) with
    | inl o =>
      apply Or.inl
      rw [alone_eq, hw]
    | inr made => exact hw
  · rw [hempty, work_empty]
    exact .inr ⟨rfl, hrefills⟩
  · rw [he]
    apply Or.inl
    rw [alone_eq, he']
    rfl

theorem Restoring.empty (h : Restoring g t₁ inputs t (before ++ (input, .holding made) :: after)) :
    let r := attempt (·.write (g.output input) .empty) t
    Restoring g t₁ inputs r.2 (before ++ (input, match r.1 with
      | .error e => .ended (written g input made (.error e))
      | .ok () => .opened made) :: after) := by
  have hwork : work input (t₁.read input) = .inr made :=
    h.suits (input, .holding made) (List.mem_append_right before List.mem_cons_self)
  have hidle : ∀ made', Phase.holding made ≠ .opened made' := by
    intro made' hopened
    cases hopened
  by_cases hplace : ∃ l, Writes g t₁ input made l
  · obtain ⟨l, hw⟩ := hplace
    rw [hw.write_eq h.sameDirs]
    have hopened : (Phase.opened made).Suits g t₁ inputs input := ⟨l, hw⟩
    apply h.advance hopened
    intro k
    rw [hw.node?_insert h.sameDirs]
    by_cases hk : k = l
    · subst hk
      rw [if_pos rfl]
      exact .inr (.inr ⟨rfl, made, rfl, hw⟩)
    · rw [if_neg hk]
      apply Or.inl
      refine ⟨rfl, ?_⟩
      rintro ⟨made', hopened, -⟩
      exact hidle made' hopened
  · obtain ⟨e, he⟩ := exists_refusal hwork hplace h.sameDirs
    rw [he]
    exact h.leave (.inl (kind_of_refusal hwork hplace e)) hidle

theorem Restoring.fill (hup : g.UpToDate t₁ inputs)
    (h : Restoring g t₁ inputs t (before ++ (input, .opened made) :: after)) :
    let r := attempt (·.write (g.output input) made.render.toUTF8) t
    Restoring g t₁ inputs r.2 (before ++ (input, .ended (written g input made r.1)) :: after) := by
  have hself : (input, Phase.opened made) ∈ before ++ (input, .opened made) :: after :=
    List.mem_append_right before List.mem_cons_self
  obtain ⟨l, hw⟩ : ∃ l, Writes g t₁ input made l := h.suits _ hself
  have hinput : input ∈ inputs := by
    rw [← h.order]
    exact List.mem_map_of_mem hself
  rw [hw.write_eq h.sameDirs]
  apply h.advance
  · apply Or.inl
    rw [hw.alone_eq]
    rfl
  · intro k
    rw [hw.node?_insert h.sameDirs]
    by_cases hk : k = l
    · subst hk
      rw [if_pos rfl]
      exact .inr (.inl (hup input hinput made k hw).symm)
    · rw [if_neg hk]
      apply Or.inl
      refine ⟨rfl, ?_⟩
      rintro ⟨made', -, hw'⟩
      exact hk (hw'.unique hw).2

end Steps

theorem restoring_waiting (inputs : List FilePath) :
    Restoring g t₁ inputs t₁ (inputs.map fun input => (input, .waiting)) := by
  refine ⟨?_, ?_, fun l => .inl rfl⟩
  · rw [List.map_map]
    exact List.map_id inputs
  · intro x hx
    obtain ⟨i, -, rfl⟩ := List.mem_map.mp hx
    trivial

theorem Restoring.step {inputs : List FilePath} (hup : g.UpToDate t₁ inputs) {t t' : Tree}
    {before after : List (FilePath × Phase)} {input : FilePath} {phase phase' : Phase}
    (h : Restoring g t₁ inputs t (before ++ (input, phase) :: after))
    (hadv : Advances g input t phase t' phase') :
    Restoring g t₁ inputs t' (before ++ (input, phase') :: after) := by
  cases hadv with
  | read => exact h.read
  | empty => exact h.empty
  | fill => exact h.fill hup

theorem restored_of_ends {inputs : List FilePath} (hup : g.UpToDate t₁ inputs)
    {outcomes : List (FilePath × Outcome)} {t₂ : Tree} (h : g.Ends t₁ inputs outcomes t₂) :
    (∀ l, t₂.node? l = t₁.node? l) ∧ outcomes.map Prod.fst = inputs ∧
      ∀ x ∈ outcomes, x.2.kind = (g.alone t₁ x.1).kind ∨
        x.2 = .nothing [] ∧ g.Refills t₁ inputs x.1 := by
  have hend := invariant_of_ends (I := Restoring g t₁ inputs) (restoring_waiting inputs)
    (fun _ _ _ _ _ _ _ => Restoring.step hup) h
  refine ⟨fun l => ?_, ?_, fun x hx => ?_⟩
  · obtain heq | ⟨-, y, hy, made, hopened, -⟩ := hend.tree l
    · exact heq
    · obtain ⟨x, -, rfl⟩ := List.mem_map.mp hy
      cases hopened
  · have horder := hend.order
    rw [List.map_map] at horder
    exact horder
  · exact hend.suits (x.1, .ended x.2) (List.mem_map_of_mem hx)

theorem steps_opened {phases : List (FilePath × Phase)} {k : Nat} {i : FilePath}
    (hk : phases[k]? = some (i, .waiting)) {made : Generated} {l : Location}
    (hw : Writes g t₁ i made l) :
    Steps ⟨t₁, phases.map (job g)⟩
      ⟨t₁.insert l (.file .empty), (phases.set k (i, .opened made)).map (job g)⟩ := by
  have hholding : Advances g i t₁ .waiting t₁ (.holding made) := by
    have h : Advances g i t₁ .waiting t₁ _ := .read t₁
    rwa [hw.work] at h
  have hopened : Advances g i t₁ (.holding made) (t₁.insert l (.file .empty)) (.opened made) := by
    have h : Advances g i t₁ (.holding made) _ _ := .empty t₁ made
    rwa [hw.write_eq fun _ => Iff.rfl] at h
  have hk' : (phases.set k (i, .holding made))[k]? = some (i, .holding made) :=
    List.getElem?_set_self (List.getElem?_eq_some_iff.mp hk).1
  have hstep := step_of_advances hk' hopened
  rw [List.set_set] at hstep
  exact .head (step_of_advances hk hholding) (.single hstep)

theorem exists_ends_of_met {t : Tree} {phases : List (FilePath × Phase)} {m : Nat} {p : FilePath}
    (hm : phases[m]? = some (p, .waiting)) (hread : t.read p = .ok .empty) :
    ∃ (outcomes : List (FilePath × Outcome)) (t₂ : Tree), Steps ⟨t, phases.map (job g)⟩
      ⟨t₂, outcomes.map fun (input, o) => (input, .done o)⟩ ∧ (p, .nothing []) ∈ outcomes := by
  have hmet : Advances g p t .waiting t (.ended (.nothing [])) := by
    have h : Advances g p t .waiting t _ := .read t
    rwa [hread, work_empty] at h
  let met := phases.set m (p, .ended (.nothing []))
  have hmem : (p, .ended (.nothing [])) ∈ met :=
    List.mem_iff_getElem?.mpr ⟨m, List.getElem?_set_self (List.getElem?_eq_some_iff.mp hm).1⟩
  have hdone : (p, .done (.nothing [])) ∈ met.map (job g) := List.mem_map_of_mem hmem
  refine ⟨(finish t (met.map (job g))).1, (finish t (met.map (job g))).2, ?_, mem_finish hdone⟩
  exact .head (step_of_advances hm hmet) (steps_finish t [] (met.map (job g)))

/-- A file that a worker writes may be met by another one when it is empty: the first has emptied it
by then, and has yet to fill it. -/
theorem exists_ends_nothing {inputs : List FilePath} {i p : FilePath} (hi : i ∈ inputs)
    (hp : p ∈ inputs) (hne : i ≠ p) {l : Location} (hwrites : g.WritesTo t₁ i l)
    (hl : t₁.locate p = .ok l) :
    ∃ outcomes t₂, g.Ends t₁ inputs outcomes t₂ ∧ (p, .nothing []) ∈ outcomes := by
  obtain ⟨made, hw⟩ := writesTo_iff.mp hwrites
  obtain ⟨k, hk⟩ := List.mem_iff_getElem?.mp hi
  obtain ⟨m, hm⟩ := List.mem_iff_getElem?.mp hp
  have hkm : k ≠ m := by
    rintro rfl
    exact hne (Option.some.inj (hk.symm.trans hm))
  let phases : List (FilePath × Phase) := inputs.map fun input => (input, .waiting)
  let opened := phases.set k (i, .opened made)
  have hopened : Steps ⟨t₁, phases.map (job g)⟩
      ⟨t₁.insert l (.file .empty), opened.map (job g)⟩ := steps_opened (by simp [phases, hk]) hw
  have hm : opened[m]? = some (p, .waiting) := by
    rw [List.getElem?_set_ne hkm, List.getElem?_map, hm]
    rfl
  have hread : (t₁.insert l (.file .empty)).read p = .ok .empty :=
    read_eq_ok_iff.mpr ⟨l, (locate_eq_ok_iff (sameDirs_insert hw.free .empty)).mp hl,
      node?_insert_self t₁ (names_ne_nil hw.free) _⟩
  obtain ⟨outcomes, t₂, hends, hmem⟩ := exists_ends_of_met hm hread
  refine ⟨outcomes, t₂, ?_, hmem⟩
  rw [Generate.Ends, workers_eq]
  exact hopened.trans hends

section Sequence

variable {inputs : List FilePath} (hup : g.UpToDate t₁ inputs)
include hup

theorem process_of_upToDate {input : FilePath} (hinput : input ∈ inputs) {t : Tree}
    (ht : ∀ l, t.node? l = t₁.node? l) :
    ((g.process input : StateM Tree Outcome) t).1.kind = (g.alone t₁ input).kind ∧
      ∀ l, ((g.process input : StateM Tree Outcome) t).2.node? l = t₁.node? l := by
  have hd : SameDirs t₁ t := fun l => by rw [ht]
  rw [process_run, alone_eq]
  obtain ⟨l, hl, hl'⟩ | ⟨⟨e, he⟩, e', he'⟩ := locate_cases hd input
  · have hread : t.read input = t₁.read input := read_eq_of_node? hl' hl (ht l)
    rw [hread]
    cases hwork : work input (t₁.read input) with
    | inl o => exact ⟨rfl, ht⟩
    | inr made =>
      by_cases hplace : ∃ l, Writes g t₁ input made l
      · obtain ⟨l, hw⟩ := hplace
        dsimp only
        rw [hw.write_eq hd, hw.write_eq fun _ => Iff.rfl]
        refine ⟨rfl, fun k => ?_⟩
        rw [hw.node?_insert hd]
        by_cases hk : k = l
        · rw [hk, if_pos rfl]
          exact (hup input hinput made l hw).symm
        · rw [if_neg hk]
          exact ht k
      · obtain ⟨e, he⟩ := exists_refusal hwork hplace hd
        have hkind := kind_of_refusal hwork hplace e
        rw [alone_eq, hwork] at hkind
        dsimp only at hkind ⊢
        rw [he]
        exact ⟨hkind, ht⟩
  · rw [he, he']
    exact ⟨rfl, ht⟩

theorem kind_of_inOrder {queue : List FilePath} (hqueue : ∀ i ∈ queue, i ∈ inputs) {t : Tree}
    (ht : ∀ l, t.node? l = t₁.node? l) :
    ∀ x ∈ (g.inOrder t queue).1, x.2.kind = (g.alone t₁ x.1).kind := by
  induction queue generalizing t with
  | nil => exact fun x hx => absurd hx List.not_mem_nil
  | cons i queue ih =>
    rw [List.forall_mem_cons] at hqueue
    obtain ⟨hkind, hnodes⟩ := process_of_upToDate hup hqueue.1 ht
    have hcons : (g.inOrder t (i :: queue)).1 =
        (i, ((g.process i : StateM Tree Outcome) t).1) ::
          (g.inOrder ((g.process i : StateM Tree Outcome) t).2 queue).1 := by
      rw [Generate.inOrder, List.mapM_cons]
      rfl
    rw [hcons, List.forall_mem_cons]
    exact ⟨hkind, ih hqueue.2 hnodes⟩

end Sequence

end Workers

end PlainTwin
