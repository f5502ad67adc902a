import Mathlib.Order.Bounds.Basic
import PlainTwin.Proofs.PieceConflicts
import PlainTwin.Proofs.Success

namespace PlainTwin.TagErrors

open PieceConflicts PieceText Success Tag TagGrammar Text Trimming

def Pieces (cs : List Char) (texts : List (List Char)) : Prop :=
  ∃ raws, raws ≠ [] ∧ (∀ raw ∈ raws, ',' ∉ raw) ∧ [','].intercalate raws = cs ∧
    List.Forall₂ Trims raws texts

def Acceptable (texts : List (List Char)) : Prop :=
  ∃ ps c, List.Forall₂ Spells texts ps ∧ Names ps c

/-- `len` alone, or with the beginning of an operator behind it. -/
def ClaimsLength (text : List Char) : Prop :=
  ∃ tail, text = "len".toList ++ tail ∧ ∀ c ∈ tail.head?, c = '=' ∨ c = '<' ∨ c = '>'

def ClaimsValues (text : List Char) : Prop := ∃ tail, text = "values:".toList ++ tail

/-- What is wrong with a text as the next piece of a tag that has begun with others. -/
inductive Blames (before : List (List Char)) (text : List Char) : TagError → Prop
  | unknown (hword : ∀ w, text ≠ (wordText w).toList) (hlength : ¬ ClaimsLength text)
      (hvalues : ¬ ClaimsValues text) : Blames before text (.unknown (String.ofList text))
  | malformedLength (hclaim : ClaimsLength text) (hspell : ∀ p, ¬ Spells text p) :
      Blames before text (.malformedLength (String.ofList text))
  | malformedValues (hclaim : ClaimsValues text) (hspell : ∀ p, ¬ Spells text p) :
      Blames before text (.malformedValues (String.ofList text))
  | conflict {earlier : List Char} {q p : Piece} (hmem : earlier ∈ before)
      (hearlier : Spells earlier q) (htext : Spells text p) (hc : Conflict q p) :
      Blames before text (.conflict (String.ofList text))

theorem pieces_iff {cs : List Char} {texts : List (List Char)} :
    Pieces cs texts ↔ texts = (cs.splitOn ',').map trim := by
  have htrim (raws : List (List Char)) : List.Forall₂ Trims raws texts ↔ raws.map trim = texts := by
    have hrel : Trims = fun raw text => trim raw = text := by
      funext raw text
      exact propext trim_eq_iff.symm
    rw [hrel, ← List.forall₂_map_left_iff, List.forall₂_eq_eq_eq]
  simp only [Pieces, htrim]
  constructor
  · rintro ⟨raws, hne, hcomma, rfl, rfl⟩
    rw [List.splitOn_intercalate ',' hcomma hne]
  · rintro rfl
    exact ⟨_, List.splitOn_ne_nil _ _, fun _ => Splitting.not_mem_of_mem_splitOn,
      List.intercalate_splitOn ',', rfl⟩

theorem ofText?_eq_none_iff {text : List Char} :
    StateWord.ofText? (String.ofList text) = none ↔ ∀ w, text ≠ (wordText w).toList := by
  simp only [Option.eq_none_iff_forall_ne_some, ne_eq, ofText?_eq_some_iff]
  refine forall_congr' fun w => not_congr ?_
  rw [← String.toList_inj, String.toList_ofList]

theorem lengthTail?_eq_none_iff {text : List Char} : lengthTail? text = none ↔ ¬ ClaimsLength text := by
  simp only [Option.eq_none_iff_forall_ne_some, ne_eq, lengthTail?_eq_some_iff, ClaimsLength,
    not_exists]

theorem isPrefixOf?_eq_none_iff {text : List Char} :
    "values:".toList.isPrefixOf? text = none ↔ ¬ ClaimsValues text := by
  rw [Option.eq_none_iff_forall_ne_some, ClaimsValues, not_exists]
  refine forall_congr' fun tail => not_congr ?_
  rw [List.isPrefixOf?_eq_some_iff_append_eq, eq_comm]

theorem blames_of_read {before : List (List Char)} {text : List Char} {err : TagError}
    (h : Piece.read text = .error err) : Blames before text err := by
  have hspell (p : Piece) : ¬ Spells text p := by
    intro hp
    rw [read_of_spells hp] at h
    cases h
  cases hword : StateWord.ofText? (String.ofList text) with
  | some w => simp [Piece.read, hword] at h
  | none =>
      cases htail : lengthTail? text with
      | some tail =>
          have hclaim : ClaimsLength text := ⟨tail, lengthTail?_eq_some_iff.mp htail⟩
          cases hrule : lengthRule? tail with
          | some r => simp [Piece.read, hword, htail, hrule] at h
          | none =>
              obtain rfl : TagError.malformedLength (String.ofList text) = err := by
                simpa [Piece.read, hword, htail, hrule] using h
              exact .malformedLength hclaim hspell
      | none =>
          cases hvalues : "values:".toList.isPrefixOf? text with
          | some tail =>
              have hclaim : ClaimsValues text :=
                ⟨tail, (List.isPrefixOf?_eq_some_iff_append_eq.mp hvalues).symm⟩
              cases hrule : valuesRule? tail with
              | some r => simp only [Piece.read, hword, htail, hvalues, hrule, reduceCtorEq] at h
              | none =>
                  obtain rfl : TagError.malformedValues (String.ofList text) = err := by
                    simpa only [Piece.read, hword, htail, hvalues, hrule, Except.error.injEq] using h
                  exact .malformedValues hclaim hspell
          | none =>
              obtain rfl : TagError.unknown (String.ofList text) = err := by
                simpa only [Piece.read, hword, htail, hvalues, Except.error.injEq] using h
              exact .unknown (ofText?_eq_none_iff.mp hword) (lengthTail?_eq_none_iff.mp htail)
                (isPrefixOf?_eq_none_iff.mp hvalues)

theorem spells_unique {text : List Char} {p q : Piece} (hp : Spells text p) (hq : Spells text q) :
    p = q :=
  Except.ok.inj ((read_of_spells hp).symm.trans (read_of_spells hq))

theorem claims_of_spells {text : List Char} {p : Piece} (h : Spells text p) :
    (∃ w, text = (wordText w).toList) ∨ ClaimsLength text ∨ ClaimsValues text := by
  cases h with
  | state w => exact .inl ⟨w, rfl⟩
  | length op =>
      refine .inr (.inl ⟨_, rfl, ?_⟩)
      rw [List.head?_append_of_ne_nil _ (symbol_ne_nil op)]
      exact head_symbol op
  | values => exact .inr (.inr ⟨"nonnull".toList, rfl⟩)

theorem not_unknown_of_spells {text : List Char} {p : Piece} (h : Spells text p)
    (hword : ∀ w, text ≠ (wordText w).toList) (hlength : ¬ ClaimsLength text) :
    ClaimsValues text := by
  obtain ⟨w, hw⟩ | hclaim | hclaim := claims_of_spells h
  · exact absurd hw (hword w)
  · exact absurd hclaim hlength
  · exact hclaim

theorem not_claimsLength_of_claimsValues {text : List Char} (h : ClaimsValues text) :
    ¬ ClaimsLength text := by
  obtain ⟨tail, rfl⟩ := h
  rintro ⟨tail', h, -⟩
  simp at h

theorem Blames.unique {before : List (List Char)} {text : List Char} {err err' : TagError}
    (h : Blames before text err) (h' : Blames before text err') : err = err' := by
  cases h with
  | unknown hword hlength hvalues =>
      cases h' with
      | unknown => rfl
      | malformedLength hclaim => exact absurd hclaim hlength
      | malformedValues hclaim => exact absurd hclaim hvalues
      | conflict _ _ htext => exact absurd (not_unknown_of_spells htext hword hlength) hvalues
  | malformedLength hclaim hspell =>
      cases h' with
      | unknown _ hlength => exact absurd hclaim hlength
      | malformedLength => rfl
      | malformedValues hvalues => exact absurd hclaim (not_claimsLength_of_claimsValues hvalues)
      | conflict _ _ htext => exact absurd htext (hspell _)
  | malformedValues hclaim hspell =>
      cases h' with
      | unknown _ _ hvalues => exact absurd hclaim hvalues
      | malformedLength hlength => exact absurd hlength (not_claimsLength_of_claimsValues hclaim)
      | malformedValues => rfl
      | conflict _ _ htext => exact absurd htext (hspell _)
  | conflict _ _ htext =>
      cases h' with
      | unknown hword hlength hvalues =>
          exact absurd (not_unknown_of_spells htext hword hlength) hvalues
      | malformedLength _ hspell | malformedValues _ hspell => exact absurd htext (hspell _)
      | conflict => rfl

theorem mem_of_spells {texts : List (List Char)} {ps : List Piece}
    (h : List.Forall₂ Spells texts ps) (q : Piece) : q ∈ ps ↔ ∃ text ∈ texts, Spells text q := by
  induction h with
  | nil => simp
  | @cons text p texts ps hp _ ih =>
      have hhead : q = p ↔ Spells text q :=
        ⟨fun hq => hq ▸ hp, fun hq => spells_unique hq hp⟩
      rw [List.mem_cons, ih, hhead]
      simp

theorem draft_read_eq_error_iff {before : List (List Char)} {ps : List Piece} {d : Draft}
    (hps : List.Forall₂ Spells before ps) (hd : Reads ps d) {text : List Char} {err : TagError} :
    d.read text = .error err ↔ Blames before text err := by
  have hblames {err : TagError} (h : d.read text = .error err) : Blames before text err := by
    cases hread : Piece.read text with
    | error e =>
        obtain rfl : e = err := by simpa [Draft.read, hread, bind, Except.bind] using h
        exact blames_of_read hread
    | ok p =>
        cases hadd : d.add? p with
        | some d' => simp [Draft.read, hread, hadd, bind, Except.bind] at h
        | none =>
            obtain rfl : TagError.conflict (String.ofList text) = err := by
              simpa [Draft.read, hread, hadd, bind, Except.bind] using h
            obtain ⟨q, hq, hc⟩ := (add?_eq_none_iff hd p).mp hadd
            obtain ⟨earlier, hmem, hearlier⟩ := (mem_of_spells hps q).mp hq
            exact .conflict hmem hearlier (read_eq_ok_iff.mp hread) hc
  refine ⟨hblames, fun h => ?_⟩
  cases hread : d.read text with
  | error e => rw [(hblames hread).unique h]
  | ok d' =>
      exfalso
      obtain ⟨p, hp, hadd⟩ := draft_read_iff.mp hread
      cases h with
      | unknown hword hlength hvalues => exact hvalues (not_unknown_of_spells hp hword hlength)
      | malformedLength _ hspell | malformedValues _ hspell => exact hspell p hp
      | conflict hmem hearlier htext hc =>
          have hq := (mem_of_spells hps _).mpr ⟨_, hmem, hearlier⟩
          rw [spells_unique htext hp] at hc
          rw [(add?_eq_none_iff hd p).mpr ⟨_, hq, hc⟩] at hadd
          cases hadd

theorem acceptable_iff {texts : List (List Char)} :
    Acceptable texts ↔ ∃ d, texts.foldlM Draft.read {} = .ok d := by
  simp only [foldlM_read_iff, foldlM_add?_iff]
  constructor
  · rintro ⟨ps, c, hps, hnames⟩
    exact ⟨⟨c, _⟩, ps, hps, hnames, rfl⟩
  · rintro ⟨d, ps, hps, hd⟩
    exact ⟨ps, d.constraint, hps, hd.names⟩

theorem Acceptable.of_append {front back : List (List Char)} (h : Acceptable (front ++ back)) :
    Acceptable front := by
  rw [acceptable_iff, List.foldlM_append] at h
  obtain ⟨d, hd⟩ := h
  obtain ⟨e, he, -⟩ := bind_eq_ok_iff.mp hd
  exact acceptable_iff.mpr ⟨e, he⟩

theorem isLeast_iff {texts : List (List Char)} {k : Nat} :
    IsLeast {n | ¬ Acceptable (texts.take n)} (k + 1) ↔
      Acceptable (texts.take k) ∧ ¬ Acceptable (texts.take (k + 1)) := by
  constructor
  · rintro ⟨hrefused, hleast⟩
    refine ⟨?_, hrefused⟩
    by_contra hk
    have hle : k + 1 ≤ k := hleast hk
    omega
  · rintro ⟨hk, hrefused⟩
    refine ⟨hrefused, fun n hn => ?_⟩
    by_contra hlt
    apply hn
    have hsplit := List.take_append_drop n (texts.take k)
    rw [List.take_take, Nat.min_eq_left (by omega)] at hsplit
    rw [← hsplit] at hk
    exact hk.of_append

theorem foldlM_read_eq_error_iff {texts : List (List Char)} {err : TagError} :
    texts.foldlM Draft.read {} = .error err ↔ ∃ k text, texts[k]? = some text ∧
      IsLeast {n | ¬ Acceptable (texts.take n)} (k + 1) ∧ Blames (texts.take k) text err := by
  rw [foldlM_eq_error_iff]
  constructor
  · rintro ⟨before, text, after, d, rfl, hbefore, hread⟩
    obtain ⟨ps, hps, hadd⟩ := foldlM_read_iff.mp hbefore
    have hblames := (draft_read_eq_error_iff hps (foldlM_add?_iff.mp hadd)).mp hread
    have htake : (before ++ text :: after).take before.length = before := List.take_left
    have htakeNext : (before ++ text :: after).take (before.length + 1) = before ++ [text] := by
      rw [List.take_length_add_append]
      rfl
    refine ⟨before.length, text, by simp, ?_, by rwa [htake]⟩
    rw [isLeast_iff, htake, htakeNext, acceptable_iff, acceptable_iff]
    refine ⟨⟨d, hbefore⟩, ?_⟩
    rintro ⟨e, he⟩
    rw [List.foldlM_append, hbefore] at he
    change [text].foldlM Draft.read d = .ok e at he
    rw [List.foldlM_cons, hread] at he
    cases he
  · rintro ⟨k, text, htext, hleast, hblames⟩
    obtain ⟨hk, -⟩ := isLeast_iff.mp hleast
    obtain ⟨d, hd⟩ := acceptable_iff.mp hk
    obtain ⟨ps, hps, hadd⟩ := foldlM_read_iff.mp hd
    refine ⟨texts.take k, text, texts.drop (k + 1), d, ?_, hd, ?_⟩
    · obtain ⟨hlt, rfl⟩ := List.getElem?_eq_some_iff.mp htext
      rw [← List.drop_eq_getElem_cons hlt, List.take_append_drop]
    · exact (draft_read_eq_error_iff hps (foldlM_add?_iff.mp hadd)).mpr hblames

theorem parse_eq_error_iff_foldlM {tag : String} {err : TagError} :
    Constraint.parse tag = .error err ↔ (∃ c ∈ tag.toList, ¬ IsWhiteSpace c) ∧
      ((tag.toList.splitOn ',').map trim).foldlM Draft.read {} = .error err := by
  have hblank : trim tag.toList = [] ↔ ¬ ∃ c ∈ tag.toList, ¬ IsWhiteSpace c := by
    rw [trim_eq_nil_iff]
    push Not
    rfl
  unfold Constraint.parse
  dsimp only
  split
  · next h => simp [hblank.mp h]
  · next h =>
      have hsome := not_not.mp (fun hnone => h (hblank.mpr hnone))
      rw [and_iff_right hsome]
      cases ((tag.toList.splitOn ',').map trim).foldlM Draft.read {} <;> simp

/-- A tag is blamed for the first of its pieces that cannot follow the ones before it, and what comes
behind that piece changes nothing. -/
theorem parse_eq_error_iff :
    (∀ tag err, Constraint.parse tag = .error err ↔ (∃ c ∈ tag.toList, ¬ IsWhiteSpace c) ∧
      ∃ texts, Pieces tag.toList texts ∧ ∃ k text, texts[k]? = some text ∧
        IsLeast {n | ¬ Acceptable (texts.take n)} (k + 1) ∧ Blames (texts.take k) text err) ∧
    ∀ tag err more, Constraint.parse tag = .error err →
      Constraint.parse (tag ++ "," ++ more) = .error err := by
  refine ⟨fun tag err => ?_, fun tag err more h => ?_⟩
  · rw [parse_eq_error_iff_foldlM, foldlM_read_eq_error_iff]
    simp only [pieces_iff, exists_eq_left]
  · rw [parse_eq_error_iff_foldlM] at h ⊢
    obtain ⟨⟨c, hc, hwhite⟩, h⟩ := h
    have happend : (tag ++ "," ++ more).toList = tag.toList ++ ',' :: more.toList := by simp
    rw [happend]
    refine ⟨⟨c, List.mem_append_left _ hc, hwhite⟩, ?_⟩
    rw [List.splitOn_append_cons_self, List.map_append, List.foldlM_append, h]
    rfl

theorem parse_of_faults :
    Constraint.parse ("len>1, def ,len=<2" ++ "," ++ "bogus,def") =
      .error (.malformedLength "len=<2") := by
  apply parse_eq_error_iff.2
  rfl

end PlainTwin.TagErrors
