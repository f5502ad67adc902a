import Mathlib.Data.List.Forall2
import Mathlib.Data.List.Induction
import PlainTwin.Proofs.PieceText
import PlainTwin.Proofs.Splitting
import PlainTwin.Proofs.StateWords

namespace PlainTwin.TagGrammar

open PieceText StateWords Tag Text Trimming

def word? : Piece → Option StateWord
  | .state w => some w
  | _ => none

def length? : Piece → Option LengthRule
  | .length r => some r
  | _ => none

def values? : Piece → Option ValuesRule
  | .values r => some r
  | _ => none

/-- The text of a tag: its pieces with commas between them, and with white space around each. -/
def Written (cs : List Char) (ps : List Piece) : Prop :=
  ∃ raws, raws ≠ [] ∧ (∀ raw ∈ raws, ',' ∉ raw) ∧ [','].intercalate raws = cs ∧
    List.Forall₂ (fun raw p => ∃ text, Trims raw text ∧ Spells text p) raws ps

/-- What pieces say together. Of each part there is at most one. -/
structure Names (ps : List Piece) (c : Constraint) : Prop where
  states : NamesStates (ps.filterMap word?) c.states
  length : ps.filterMap length? = c.length.toList
  values : ps.filterMap values? = c.values.toList

structure Reads (ps : List Piece) (d : Draft) : Prop where
  names : Names ps d.constraint
  shorthand : d.shorthand = (ps.filterMap word?).any StateWord.isShorthand

theorem reads_nil_iff {d : Draft} : Reads [] d ↔ d = {} := by
  constructor
  · rintro ⟨⟨hstates, hlength, hvalues⟩, hshort⟩
    obtain ⟨⟨states, length, values⟩, shorthand⟩ := d
    obtain rfl : states = none := namesStates_nil_iff.mp hstates
    obtain rfl : length = none := by simpa using hlength.symm
    obtain rfl : values = none := by simpa using hvalues.symm
    obtain rfl : shorthand = false := hshort
    rfl
  · rintro rfl
    exact ⟨⟨.nil, rfl, rfl⟩, rfl⟩

theorem addState?_eq_some_iff {d e : Draft} {w : StateWord} : d.addState? w = some e ↔
    d.shorthand = false ∧ (w.isShorthand → (d.constraint.states.getD .empty).isEmpty) ∧
      (d.constraint.states.getD .empty).meets w.states = false ∧
      e = ⟨{ d.constraint with
        states := some ((d.constraint.states.getD .empty).union w.states) }, w.isShorthand⟩ := by
  unfold Draft.addState?
  dsimp only
  generalize d.constraint.states.getD .empty = s
  cases d.shorthand <;> cases w.isShorthand <;> cases s.isEmpty <;> cases s.meets w.states <;>
    simp [eq_comm]

theorem filterMap_concat {β : Type} (f : Piece → Option β) (ps : List Piece) (p : Piece) :
    (ps ++ [p]).filterMap f = ps.filterMap f ++ (f p).toList := by
  cases h : f p <;> simp [h]

theorem reads_concat {ps : List Piece} {p : Piece} {e : Draft} : Reads (ps ++ [p]) e ↔
    NamesStates (ps.filterMap word? ++ (word? p).toList) e.constraint.states ∧
      ps.filterMap length? ++ (length? p).toList = e.constraint.length.toList ∧
      ps.filterMap values? ++ (values? p).toList = e.constraint.values.toList ∧
      e.shorthand = (ps.filterMap word? ++ (word? p).toList).any StateWord.isShorthand := by
  simp only [← filterMap_concat]
  constructor
  · rintro ⟨⟨hstates, hlength, hvalues⟩, hshort⟩
    exact ⟨hstates, hlength, hvalues, hshort⟩
  · rintro ⟨hstates, hlength, hvalues, hshort⟩
    exact ⟨⟨hstates, hlength, hvalues⟩, hshort⟩

theorem reads_state_iff {ps : List Piece} {w : StateWord} {e : Draft} :
    Reads (ps ++ [.state w]) e ↔ ∃ d, Reads ps d ∧ d.add? (.state w) = some e := by
  simp only [reads_concat, word?, length?, values?, Option.toList_some, Option.toList_none,
    List.append_nil, Draft.add?, addState?_eq_some_iff]
  constructor
  · rintro ⟨hstates, hlength, hvalues, hshort⟩
    obtain ⟨o, ho, hprev, hempty, hmeets, hunion⟩ := namesStates_concat_iff.mp hstates
    refine ⟨⟨{ e.constraint with states := o }, false⟩, ⟨⟨ho, hlength, hvalues⟩, hprev.symm⟩, rfl,
      hempty, hmeets, ?_⟩
    obtain ⟨⟨states, length, values⟩, shorthand⟩ := e
    obtain rfl : states = _ := hunion
    obtain rfl : shorthand = w.isShorthand := by simpa [hprev] using hshort
    rfl
  · rintro ⟨d, ⟨⟨hstates, hlength, hvalues⟩, hshort⟩, hprev, hempty, hmeets, rfl⟩
    have hplain : (ps.filterMap word?).any StateWord.isShorthand = false := hshort.symm.trans hprev
    refine ⟨?_, hlength, hvalues, ?_⟩
    · exact namesStates_concat_iff.mpr ⟨_, hstates, hplain, hempty, hmeets, rfl⟩
    · rw [List.any_append, hplain]
      simp

theorem concat_eq_toList_iff {β : Type} {xs : List β} {x : β} {o : Option β} :
    xs ++ [x] = o.toList ↔ xs = [] ∧ o = some x := by
  cases o with
  | none => simp
  | some y =>
      constructor
      · intro h
        obtain ⟨hnil, ⟨⟩⟩ := (List.append_eq_singleton_iff.mp h).resolve_right (by simp)
        exact ⟨hnil, rfl⟩
      · rintro ⟨rfl, ⟨⟩⟩
        rfl

theorem reads_length_iff {ps : List Piece} {r : LengthRule} {e : Draft} :
    Reads (ps ++ [.length r]) e ↔ ∃ d, Reads ps d ∧ d.add? (.length r) = some e := by
  simp only [reads_concat, word?, length?, values?, Option.toList_some, Option.toList_none,
    List.append_nil, concat_eq_toList_iff, Draft.add?]
  constructor
  · rintro ⟨hstates, ⟨hnil, hlength⟩, hvalues, hshort⟩
    refine ⟨⟨{ e.constraint with length := none }, e.shorthand⟩,
      ⟨⟨hstates, hnil, hvalues⟩, hshort⟩, ?_⟩
    rw [← hlength]
    rfl
  · rintro ⟨d, ⟨⟨hstates, hlength, hvalues⟩, hshort⟩, hadd⟩
    cases hd : d.constraint.length with
    | some r => simp [hd] at hadd
    | none =>
        rw [hd] at hadd hlength
        obtain rfl := Option.some.inj hadd
        exact ⟨hstates, ⟨hlength, rfl⟩, hvalues, hshort⟩

theorem reads_values_iff {ps : List Piece} {r : ValuesRule} {e : Draft} :
    Reads (ps ++ [.values r]) e ↔ ∃ d, Reads ps d ∧ d.add? (.values r) = some e := by
  simp only [reads_concat, word?, length?, values?, Option.toList_some, Option.toList_none,
    List.append_nil, concat_eq_toList_iff, Draft.add?]
  constructor
  · rintro ⟨hstates, hlength, ⟨hnil, hvalues⟩, hshort⟩
    refine ⟨⟨{ e.constraint with values := none }, e.shorthand⟩,
      ⟨⟨hstates, hlength, hnil⟩, hshort⟩, ?_⟩
    rw [← hvalues]
    rfl
  · rintro ⟨d, ⟨⟨hstates, hlength, hvalues⟩, hshort⟩, hadd⟩
    cases hd : d.constraint.values with
    | some r => simp [hd] at hadd
    | none =>
        rw [hd] at hadd hvalues
        obtain rfl := Option.some.inj hadd
        exact ⟨hstates, hlength, ⟨hvalues, rfl⟩, hshort⟩

theorem reads_concat_iff {ps : List Piece} {p : Piece} {e : Draft} :
    Reads (ps ++ [p]) e ↔ ∃ d, Reads ps d ∧ d.add? p = some e := by
  cases p with
  | state w => exact reads_state_iff
  | length r => exact reads_length_iff
  | values r => exact reads_values_iff

theorem foldlM_add?_iff {ps : List Piece} {d : Draft} :
    ps.foldlM Draft.add? {} = some d ↔ Reads ps d := by
  -- A draft is about what was read before, so the pieces are taken from the end.
  induction ps using List.reverseRecOn generalizing d with
  | nil => rw [reads_nil_iff, List.foldlM_nil, eq_comm]; simp
  | append_singleton ps p ih =>
      rw [reads_concat_iff, List.foldlM_append]
      simp only [List.foldlM_cons, List.foldlM_nil, bind_pure, Option.bind_eq_bind,
        Option.bind_eq_some_iff, ih]

theorem draft_read_iff {d e : Draft} {cs : List Char} :
    d.read cs = .ok e ↔ ∃ p, Spells cs p ∧ d.add? p = some e := by
  simp only [← read_eq_ok_iff, Draft.read]
  cases Piece.read cs with
  | error err => simp [bind, Except.bind]
  | ok p =>
      cases hadd : d.add? p <;> simp [bind, Except.bind, hadd]

theorem foldlM_read_iff {texts : List (List Char)} {d e : Draft} :
    texts.foldlM Draft.read d = .ok e ↔
      ∃ ps, List.Forall₂ Spells texts ps ∧ ps.foldlM Draft.add? d = some e := by
  induction texts generalizing d with
  | nil => simp [pure, Except.pure]
  | cons text texts ih =>
      constructor
      · intro h
        cases hread : d.read text with
        | error err => simp [hread, bind, Except.bind] at h
        | ok d' =>
            obtain ⟨p, hp, hadd⟩ := draft_read_iff.mp hread
            have hrest : texts.foldlM Draft.read d' = .ok e := by
              simpa [hread, bind, Except.bind] using h
            obtain ⟨ps, hps, hadds⟩ := ih.mp hrest
            exact ⟨p :: ps, .cons hp hps, by simpa [hadd] using hadds⟩
      · rintro ⟨_, hall, hadds⟩
        obtain ⟨p, ps, hp, hps, rfl⟩ := List.forall₂_cons_left_iff.mp hall
        cases hadd : d.add? p with
        | none => simp [hadd] at hadds
        | some d' =>
            have hread : d.read text = .ok d' := draft_read_iff.mpr ⟨p, hp, hadd⟩
            have hrest : ps.foldlM Draft.add? d' = some e := by simpa [hadd] using hadds
            simpa [hread, bind, Except.bind] using ih.mpr ⟨ps, hps, hrest⟩

theorem written_iff {cs : List Char} {ps : List Piece} :
    Written cs ps ↔ List.Forall₂ Spells ((cs.splitOn ',').map trim) ps := by
  have htrim (raw : List Char) (p : Piece) :
      (∃ text, Trims raw text ∧ Spells text p) ↔ Spells (trim raw) p := by
    simp only [← trim_eq_iff, exists_eq_left']
  simp only [Written, htrim, List.forall₂_map_left_iff]
  constructor
  · rintro ⟨raws, hne, hcomma, rfl, h⟩
    rw [List.splitOn_intercalate ',' hcomma hne]
    exact h
  · intro h
    exact ⟨_, List.splitOn_ne_nil _ _, fun _ => Splitting.not_mem_of_mem_splitOn,
      List.intercalate_splitOn ',', h⟩

theorem not_spells_nil (p : Piece) : ¬ Spells [] p := by
  rw [← read_eq_ok_iff]
  intro h
  cases h

theorem not_written_of_blank {cs : List Char} (h : ∀ c ∈ cs, IsWhiteSpace c) (ps : List Piece) :
    ¬ Written cs ps := by
  rw [written_iff, List.splitOn_eq_singleton (fun hc => by simpa [IsWhiteSpace] using h ',' hc),
    List.map_singleton, trim_eq_nil_iff.mpr h]
  intro hps
  cases hps with
  | cons hp => exact not_spells_nil _ hp

theorem constraint_foldlM_read_iff {cs : List Char} {c : Constraint} :
    Draft.constraint <$> ((cs.splitOn ',').map trim).foldlM Draft.read {} = .ok c ↔
      ∃ ps, Written cs ps ∧ Names ps c := by
  constructor
  · intro h
    cases hread : ((cs.splitOn ',').map trim).foldlM Draft.read {} with
    | error err =>
        rw [hread] at h
        cases h
    | ok d =>
        rw [hread] at h
        obtain rfl : d.constraint = c := Except.ok.inj h
        obtain ⟨ps, hps, hadd⟩ := foldlM_read_iff.mp hread
        exact ⟨ps, written_iff.mpr hps, (foldlM_add?_iff.mp hadd).names⟩
  · rintro ⟨ps, hps, hnames⟩
    have hreads : Reads ps ⟨c, (ps.filterMap word?).any StateWord.isShorthand⟩ := ⟨hnames, rfl⟩
    rw [foldlM_read_iff.mpr ⟨ps, written_iff.mp hps, foldlM_add?_iff.mpr hreads⟩]
    rfl

/-- The parser takes exactly the tags of the grammar, and takes each for what its pieces say. -/
theorem parse_eq_ok_iff (tag : String) (c : Constraint) : Constraint.parse tag = .ok c ↔
    ((∀ ch ∈ tag.toList, IsWhiteSpace ch) ∧ c = {}) ∨
      ∃ ps, Written tag.toList ps ∧ Names ps c := by
  unfold Constraint.parse
  dsimp only
  split
  · next hblank =>
      have hwhite := trim_eq_nil_iff.mp hblank
      constructor
      · intro h
        exact .inl ⟨hwhite, (Except.ok.inj h).symm⟩
      · rintro (⟨-, rfl⟩ | ⟨ps, hps, -⟩)
        · rfl
        · exact absurd hps (not_written_of_blank hwhite ps)
  · next hblank =>
      rw [constraint_foldlM_read_iff]
      constructor
      · exact .inr
      · rintro (⟨hwhite, -⟩ | h)
        · exact absurd (trim_eq_nil_iff.mpr hwhite) hblank
        · exact h

end PlainTwin.TagGrammar
