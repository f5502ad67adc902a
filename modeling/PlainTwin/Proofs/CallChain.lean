import PlainTwin.Conversion.Expr

namespace PlainTwin.CallChain

variable {α : Type} {d : α}

/-- The calls of `ps`, one after the other, fit each other from the form `f` to the form `g`, and
together compute the given function. -/
inductive Runs (d : α) : List Primitive → (f g : Form) → (f.Val α → g.Val α) → Prop
  | nil (f) : Runs d [] f f id
  | cons {p ps f g h} {P : f.Val α → g.Val α} {Q : g.Val α → h.Val α}
      (hp : p.meaning? d f = some ⟨g, P⟩) (hps : Runs d ps g h Q) : Runs d (p :: ps) f h (Q ∘ P)

theorem Runs.single {p : Primitive} {f g : Form} {P : f.Val α → g.Val α}
    (hp : p.meaning? d f = some ⟨g, P⟩) : Runs d [p] f g P :=
  Runs.cons (Q := id) hp (.nil g)

theorem Runs.append {ps qs : List Primitive} {f g h : Form} {P : f.Val α → g.Val α}
    {Q : g.Val α → h.Val α} (hp : Runs d ps f g P) (hq : Runs d qs g h Q) :
    Runs d (ps ++ qs) f h (Q ∘ P) := by
  induction hp with
  | nil => exact hq
  | @cons _ _ _ _ _ _ P hp _ ih => exact Runs.cons (Q := Q ∘ P) hp (ih hq)

theorem meaning?_calls {ps : List Primitive} {f g h : Form} {e : Expr} {E : f.Val α → g.Val α}
    {P : g.Val α → h.Val α} (hps : Runs d ps g h P) (he : e.meaning? d f = some ⟨g, E⟩) :
    (e.calls ps).meaning? d f = some ⟨h, P ∘ E⟩ := by
  induction hps generalizing e with
  | nil => exact he
  | @cons p ps g g' h P Q hp _ ih =>
      have hcall : (Expr.call p e).meaning? d f = some ⟨g', P ∘ E⟩ := by
        simp [Expr.meaning?, he, hp]
      exact ih hcall

theorem meaning?_calls_source {ps : List Primitive} {f g : Form} {P : f.Val α → g.Val α}
    (hps : Runs d ps f g P) : (Expr.source.calls ps).meaning? d f = some ⟨g, P⟩ :=
  meaning?_calls hps rfl

theorem meaning?_onDefined {ps : List Primitive} {f g h : Form} {e : Expr}
    {E : f.Val α → (Form.tri g).Val α} {P : g.Val α → h.Val α} (hps : Runs d ps g h P)
    (he : e.meaning? d f = some ⟨.tri g, E⟩) :
    (Conversion.onDefined e ps).meaning? d f = some ⟨.tri h, fun x => (E x).map P⟩ := by
  cases hps with
  | nil => simpa [Conversion.onDefined, Tri.map_id] using he
  | cons hp hps =>
      have hbody := meaning?_calls_source (.cons hp hps)
      simp [Conversion.onDefined, Expr.meaning?, he, hbody]

theorem eval?_eq_some {f g : Form} {e : Expr} {E : f.Val α → g.Val α}
    (he : e.meaning? d f = some ⟨g, E⟩) (x : f.Val α) : e.eval? d x g = some (E x) := by
  simp [Expr.eval?, he]

end PlainTwin.CallChain
