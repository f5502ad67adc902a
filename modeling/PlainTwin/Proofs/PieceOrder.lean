import Mathlib.Data.List.Perm.Basic
import PlainTwin.Proofs.TagGrammar

namespace PlainTwin.PieceOrder

open PieceText StateWords Tag TagGrammar Text Trimming

theorem named_perm {vs ws : List StateWord} (h : vs.Perm ws) : named vs = named ws := by
  simp only [named, h.mem_iff]

theorem NamesStates.perm {vs ws : List StateWord} {o : Option StateSet} (h : NamesStates vs o)
    (hp : vs.Perm ws) : NamesStates ws o := by
  cases h with
  | nil =>
      obtain rfl := hp.nil_eq
      exact .nil
  | required =>
      obtain rfl := List.singleton_perm.mp hp
      exact .required
  | nullish =>
      obtain rfl := List.singleton_perm.mp hp
      exact .nullish
  | words hne hnodup hplain =>
      rw [named_perm hp]
      refine .words ?_ (hp.nodup_iff.mp hnodup) fun w hw => hplain w (hp.mem_iff.mpr hw)
      rintro rfl
      exact hne hp.eq_nil

theorem eq_toList_of_perm {β : Type} {xs ys : List β} {o : Option β} (h : xs = o.toList)
    (hp : xs.Perm ys) : ys = o.toList := by
  subst h
  cases o with
  | none => exact hp.nil_eq.symm
  | some b => exact List.perm_singleton.mp hp.symm

theorem Names.perm {ps qs : List Piece} {c : Constraint} (h : Names ps c) (hp : ps.Perm qs) :
    Names qs c where
  states := NamesStates.perm h.states (hp.filterMap word?)
  length := eq_toList_of_perm h.length (hp.filterMap length?)
  values := eq_toList_of_perm h.values (hp.filterMap values?)

theorem written_joined_iff {xs : List String} (hne : xs ≠ []) (hcomma : ∀ x ∈ xs, ',' ∉ x.toList)
    {ps : List Piece} : Written (",".intercalate xs).toList ps ↔
      List.Forall₂ (fun x p => Spells (trim x.toList) p) xs ps := by
  have hsplit : (",".intercalate xs).toList.splitOn ',' = xs.map String.toList := by
    rw [String.toList_intercalate]
    exact List.splitOn_intercalate ',' (by simpa using hcomma) (by simpa using hne)
  rw [written_iff, hsplit, List.map_map, List.forall₂_map_left_iff]
  rfl

theorem trim_joined_ne_nil (x y : String) (xs : List String) :
    trim (",".intercalate (x :: y :: xs)).toList ≠ [] := by
  rw [ne_eq, trim_eq_nil_iff, String.intercalate_cons_cons]
  intro h
  have hcomma : IsWhiteSpace ',' := h ',' (by simp)
  simp [IsWhiteSpace] at hcomma

theorem parse_joined_iff {x y : String} {xs : List String}
    (hcomma : ∀ z ∈ x :: y :: xs, ',' ∉ z.toList) {c : Constraint} :
    Constraint.parse (",".intercalate (x :: y :: xs)) = .ok c ↔
      ∃ ps, List.Forall₂ (fun z p => Spells (trim z.toList) p) (x :: y :: xs) ps ∧ Names ps c := by
  rw [Constraint.parse, if_neg (trim_joined_ne_nil x y xs), constraint_foldlM_read_iff]
  simp only [written_joined_iff (List.cons_ne_nil x (y :: xs)) hcomma]

theorem parse_eq_ok_of_perm {xs ys : List String} (hcomma : ∀ x ∈ xs, ',' ∉ x.toList)
    (h : xs.Perm ys) {c : Constraint} (hc : Constraint.parse (",".intercalate xs) = .ok c) :
    Constraint.parse (",".intercalate ys) = .ok c := by
  match xs, ys with
  | [], ys =>
      obtain rfl := h.nil_eq
      exact hc
  | [x], ys =>
      obtain rfl := List.singleton_perm.mp h
      exact hc
  | _ :: _ :: _, [] | _ :: _ :: _, [_] => exact absurd h.length_eq (by simp)
  | x :: x' :: xs, y :: y' :: ys =>
      obtain ⟨ps, hps, hnames⟩ := (parse_joined_iff hcomma).mp hc
      obtain ⟨qs, hqs, hperm⟩ := List.perm_comp_forall₂ h.symm hps
      have hcomma' : ∀ z ∈ y :: y' :: ys, ',' ∉ z.toList := fun z hz => hcomma z (h.mem_iff.mpr hz)
      exact (parse_joined_iff hcomma').mpr ⟨qs, hqs, Names.perm hnames hperm.symm⟩

/-- The order of the pieces of a tag does not matter, be they good or bad: in any order they are
read as the same constraint, or in no order as one. -/
theorem parse_of_perm {xs ys : List String} (hcomma : ∀ x ∈ xs, ',' ∉ x.toList)
    (h : xs.Perm ys) :
    (∃ c, Constraint.parse (",".intercalate xs) = .ok c ∧
      Constraint.parse (",".intercalate ys) = .ok c) ∨
    ∃ e e', Constraint.parse (",".intercalate xs) = .error e ∧
      Constraint.parse (",".intercalate ys) = .error e' := by
  have hcomma' : ∀ y ∈ ys, ',' ∉ y.toList := fun y hy => hcomma y (h.mem_iff.mpr hy)
  cases hx : Constraint.parse (",".intercalate xs) with
  | ok c => exact .inl ⟨c, rfl, parse_eq_ok_of_perm hcomma h hx⟩
  | error e =>
      cases hy : Constraint.parse (",".intercalate ys) with
      | error e' => exact .inr ⟨e, e', rfl, rfl⟩
      | ok c =>
          have hok := parse_eq_ok_of_perm hcomma' h.symm hy
          rw [hx] at hok
          cases hok

theorem parse_of_perm_words : ["null", " len>=2", "def "].Perm ["def ", "null", " len>=2"] ∧
    Constraint.parse "null, len>=2,def " = .ok ⟨some ⟨true, true, false⟩, some ⟨.ge, 2⟩, none⟩ ∧
    Constraint.parse "def ,null, len>=2" = .ok ⟨some ⟨true, true, false⟩, some ⟨.ge, 2⟩, none⟩ := by
  have hperm : ["null", " len>=2", "def "].Perm ["def ", "null", " len>=2"] := by decide
  have hparse : Constraint.parse (",".intercalate ["null", " len>=2", "def "]) =
      .ok ⟨some ⟨true, true, false⟩, some ⟨.ge, 2⟩, none⟩ := by decide +kernel
  obtain ⟨c, hc, hc'⟩ | ⟨e, e', he, -⟩ := parse_of_perm (by decide) hperm
  · obtain rfl := Except.ok.inj (hparse.symm.trans hc)
    exact ⟨hperm, hparse, hc'⟩
  · cases hparse.symm.trans he

/-- Which of two faults is told depends on the order. -/
example : Constraint.parse "def,x,def" = .error (.unknown "x") ∧
    Constraint.parse "def,def,x" = .error (.conflict "def") := by
  decide +kernel

end PlainTwin.PieceOrder
