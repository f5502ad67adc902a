import PlainTwin.Proofs.TagGrammar
import PlainTwin.Tag

namespace PlainTwin.TagPrinting

open PieceText StateWords Tag TagGrammar Text Trimming

/-- What a tag can say: a part for the states allows one of them, and a part for the values asks for
something. -/
structure Sayable (c : Constraint) : Prop where
  states : ∀ s, c.states = some s → s.defined = true ∨ s.null = true ∨ s.undefined = true
  values : ∀ r, c.values = some r → r.nonnull = true

theorem sayable_of_names {ps : List Piece} {c : Constraint} (h : Names ps c)
    (hps : ∀ p ∈ ps, ∃ text, Spells text p) : Sayable c where
  states s hs := by
    have hnames := h.states
    rw [hs] at hnames
    generalize ps.filterMap word? = ws at hnames
    cases hnames with
    | required | nullish => simp
    | words hne _ hplain =>
        obtain ⟨w, ws, rfl⟩ := List.exists_cons_of_ne_nil hne
        have hw := hplain w List.mem_cons_self
        simp only [List.mem_cons, List.not_mem_nil, or_false] at hw
        rcases hw with rfl | rfl | rfl <;> simp [named]
  values r hr := by
    have hmem : r ∈ ps.filterMap values? := by simp [h.values, hr]
    obtain ⟨p, hp, hpr⟩ := List.mem_filterMap.mp hmem
    obtain ⟨text, htext⟩ := hps p hp
    cases htext with
    | state | length => cases hpr
    | values =>
        obtain rfl := Option.some.inj hpr
        rfl

theorem exists_spells {texts : List (List Char)} {ps : List Piece}
    (h : List.Forall₂ Spells texts ps) : ∀ p ∈ ps, ∃ text, Spells text p := by
  induction h with
  | nil => exact fun p hp => absurd hp List.not_mem_nil
  | cons hp _ ih => exact List.forall_mem_cons.mpr ⟨⟨_, hp⟩, ih⟩

theorem sayable_of_parse {tag : String} {c : Constraint} (h : Constraint.parse tag = .ok c) :
    Sayable c := by
  unfold Constraint.parse at h
  dsimp only at h
  split at h
  · obtain rfl := Except.ok.inj h
    exact { states := fun _ hs => (nomatch hs), values := fun _ hr => (nomatch hr) }
  · obtain ⟨ps, hps, hnames⟩ := constraint_foldlM_read_iff.mp h
    exact sayable_of_names hnames (exists_spells (written_iff.mp hps))

theorem parse_of_written {tag : String} {ps : List Piece} {c : Constraint}
    (hps : Written tag.toList ps) (hnames : Names ps c) : Constraint.parse tag = .ok c := by
  have hblank : trim tag.toList ≠ [] := fun h => not_written_of_blank (trim_eq_nil_iff.mp h) ps hps
  simp only [Constraint.parse, if_neg hblank]
  exact constraint_foldlM_read_iff.mpr ⟨ps, hps, hnames⟩

def stateWords (s : StateSet) : List StateWord :=
  if s = .required then [.required]
  else if s = .nullish then [.nullish]
  else (if s.defined then [.defined] else []) ++ (if s.null then [.null] else []) ++
    (if s.undefined then [.undefined] else [])

theorem words_eq (s : StateSet) : s.words = (stateWords s).map wordText := by
  obtain ⟨defined, null, undefined⟩ := s
  cases defined <;> cases null <;> cases undefined <;> rfl

theorem namesStates_stateWords : ∀ {s : StateSet},
    (s.defined = true ∨ s.null = true ∨ s.undefined = true) → NamesStates (stateWords s) (some s)
  | ⟨true, false, false⟩, _ => .required
  | ⟨false, true, true⟩, _ => .nullish
  | ⟨true, true, true⟩, _ | ⟨true, true, false⟩, _ | ⟨true, false, true⟩, _
  | ⟨false, true, false⟩, _ | ⟨false, false, true⟩, _ => .words (by decide) (by decide) (by decide)
  | ⟨false, false, false⟩, h => by simp at h

def pieces (c : Constraint) : List Piece :=
  (c.states.elim [] stateWords).map .state ++ c.length.toList.map .length ++
    c.values.toList.map .values

def pieceText : Piece → String
  | .state w => wordText w
  | .length r => r.render
  | .values r => r.render

theorem filterMap_pieces {β : Type} (f : Piece → Option β) (c : Constraint) :
    (pieces c).filterMap f = (c.states.elim [] stateWords).filterMap (f ∘ .state) ++
      c.length.toList.filterMap (f ∘ .length) ++ c.values.toList.filterMap (f ∘ .values) := by
  simp only [pieces, List.filterMap_append, List.filterMap_map]

theorem names_pieces {c : Constraint} (h : Sayable c) : Names (pieces c) c where
  states := by
    have hwords : (pieces c).filterMap word? = c.states.elim [] stateWords := by
      rw [filterMap_pieces]
      simp [Function.comp_def, word?]
    rw [hwords]
    cases hs : c.states with
    | none => exact .nil
    | some s => exact namesStates_stateWords (h.states s hs)
  length := by
    rw [filterMap_pieces]
    simp [Function.comp_def, length?]
  values := by
    rw [filterMap_pieces]
    simp [Function.comp_def, values?]

theorem spells_render (r : LengthRule) : Spells r.render.toList (.length r) := by
  obtain ⟨hne, hdigit, hnumeral⟩ := bound?_eq_some_iff.mp (bound?_toDigits r.bound)
  have hdigits : Spells ("len".toList ++ (r.op.symbol.toList ++ Nat.toDigits 10 r.bound.toNat))
      (.length ⟨r.op, r.bound⟩) := .length r.op hne hdigit hnumeral
  simpa [LengthRule.render, String.toList_append, Nat.toList_repr] using hdigits

theorem spells_pieceText {c : Constraint} (h : Sayable c) :
    ∀ p ∈ pieces c, Spells (pieceText p).toList p := by
  intro p hp
  cases p with
  | state w => exact .state w
  | length r => exact spells_render r
  | values r =>
      have hr : c.values = some r := by
        have hmem : r ∈ (pieces c).filterMap values? := List.mem_filterMap.mpr ⟨_, hp, rfl⟩
        rw [(names_pieces h).values] at hmem
        exact Option.mem_toList.mp hmem
      obtain rfl : r = ⟨true⟩ := by
        obtain ⟨nonnull⟩ := r
        exact congrArg ValuesRule.mk (h.values _ hr)
      exact .values

theorem not_isWhiteSpace_of_isDigit {c : Char} (h : c.isDigit = true) :
    c ≠ ',' ∧ ¬ IsWhiteSpace c := by
  have hrange : 48 ≤ c.toNat ∧ c.toNat ≤ 57 := by
    simpa [Char.isDigit, Char.le_def, UInt32.le_iff_toNat_le] using h
  constructor
  · rintro rfl
    exact absurd hrange.1 (by decide)
  · unfold IsWhiteSpace
    omega

theorem clean_of_spells {text : List Char} {p : Piece} (h : Spells text p) :
    ∀ c ∈ text, c ≠ ',' ∧ ¬ IsWhiteSpace c := by
  cases h with
  | state w => cases w <;> simp [wordText, IsWhiteSpace]
  | length op _ hdigit _ =>
      simp only [List.forall_mem_append]
      refine ⟨by simp [IsWhiteSpace], ?_, fun c hc => not_isWhiteSpace_of_isDigit (hdigit c hc)⟩
      cases op <;> simp [LengthOp.symbol, IsWhiteSpace]
  | values => simp [IsWhiteSpace]

theorem trims_self {text : List Char} (h : ∀ c ∈ text, ¬ IsWhiteSpace c) : Trims text text where
  parts := ⟨[], [], by simp, by simp, by simp⟩
  head c hc := h c (List.mem_of_head? hc)
  last c hc := h c (List.mem_of_getLast? hc)

theorem written_of_spells {ps : List Piece} (hne : ps ≠ [])
    (h : ∀ p ∈ ps, Spells (pieceText p).toList p) :
    Written ((",".intercalate (ps.map pieceText)).toList) ps := by
  refine ⟨ps.map fun p => (pieceText p).toList, ?_, ?_, ?_, ?_⟩
  · simpa using hne
  · intro raw hraw hcomma
    obtain ⟨p, hp, rfl⟩ := List.mem_map.mp hraw
    exact (clean_of_spells (h p hp) _ hcomma).1 rfl
  · rw [String.toList_intercalate, List.map_map]
    rfl
  · rw [List.forall₂_map_left_iff, List.forall₂_same]
    intro p hp
    exact ⟨_, trims_self fun c hc => (clean_of_spells (h p hp) c hc).2, h p hp⟩

theorem intercalate_intercalate {ws : List String} (hne : ws ≠ []) (rest : List String) :
    ",".intercalate (",".intercalate ws :: rest) = ",".intercalate (ws ++ rest) := by
  cases rest with
  | nil => simp
  | cons t rest =>
      rw [String.intercalate_append_of_ne_nil hne (List.cons_ne_nil _ _),
        String.intercalate_cons_cons]

theorem stateWords_ne_nil {s : StateSet}
    (h : s.defined = true ∨ s.null = true ∨ s.undefined = true) : stateWords s ≠ [] := by
  intro hnil
  have hnames := namesStates_stateWords h
  rw [hnil, namesStates_nil_iff] at hnames
  cases hnames

theorem render_eq {c : Constraint} (h : Sayable c) :
    c.render = ",".intercalate ((pieces c).map pieceText) := by
  have hlength : c.length.toList.map (pieceText ∘ .length) = (c.length.map LengthRule.render).toList := by
    cases c.length <;> rfl
  have hvalues : c.values.toList.map (pieceText ∘ .values) = (c.values.map ValuesRule.render).toList := by
    cases c.values <;> rfl
  simp only [Constraint.render, Constraint.parts, pieces, List.map_append, List.map_map, hlength,
    hvalues, List.append_assoc]
  cases hs : c.states with
  | none => rfl
  | some s =>
      have hwords : (stateWords s).map (pieceText ∘ .state) = s.words := (words_eq s).symm
      have hne : s.words ≠ [] := by
        rw [words_eq, ne_eq, List.map_eq_nil_iff]
        exact stateWords_ne_nil (h.states s hs)
      simp only [Option.map_some, Option.toList_some, Option.elim_some, hwords, StateSet.render,
        List.singleton_append]
      exact intercalate_intercalate hne _

theorem eq_empty_of_pieces {c : Constraint} (h : Sayable c) (hnil : pieces c = []) : c = {} := by
  have hnames := names_pieces h
  rw [hnil] at hnames
  have hreads : Reads [] ⟨c, false⟩ := ⟨hnames, rfl⟩
  exact congrArg Draft.constraint (reads_nil_iff.mp hreads)

theorem parse_of_sayable {c : Constraint} (h : Sayable c) : Constraint.parse c.render = .ok c := by
  by_cases hnil : pieces c = []
  · obtain rfl := eq_empty_of_pieces h hnil
    rfl
  · refine parse_of_written ?_ (names_pieces h)
    rw [render_eq h]
    exact written_of_spells hnil (spells_pieceText h)

/-- A constraint is read back from its text if and only if a tag can say it, which goes for whatever
a tag was read as. So what was read from tags is told apart by its text. -/
theorem parse_render_eq_ok_iff :
    (∀ c : Constraint, Constraint.parse c.render = .ok c ↔
      (∀ s, c.states = some s → s.defined = true ∨ s.null = true ∨ s.undefined = true) ∧
        ∀ r, c.values = some r → r.nonnull = true) ∧
    (∀ tag c, Constraint.parse tag = .ok c → Constraint.parse c.render = .ok c) ∧
    ∀ tag tag' c d, Constraint.parse tag = .ok c → Constraint.parse tag' = .ok d →
      c.render = d.render → c = d := by
  have hback {tag : String} {c : Constraint} (h : Constraint.parse tag = .ok c) :
      Constraint.parse c.render = .ok c := parse_of_sayable (sayable_of_parse h)
  refine ⟨fun c => ⟨fun h => ?_, fun h => parse_of_sayable ⟨h.1, h.2⟩⟩, fun _ _ => hback,
    fun tag tag' c d hc hd h => ?_⟩
  · obtain ⟨hstates, hvalues⟩ := sayable_of_parse h
    exact ⟨hstates, hvalues⟩
  · have hsame : Constraint.parse c.render = .ok d := by
      rw [h]
      exact hback hd
    exact Except.ok.inj ((hback hc).symm.trans hsame)

end PlainTwin.TagPrinting
