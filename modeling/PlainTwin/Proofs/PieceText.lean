import Mathlib.Data.List.Basic
import Mathlib.Data.Nat.Digits.Defs
import PlainTwin.Tag.Parser

namespace PlainTwin.PieceText

open Tag

def wordText : StateWord → String
  | .required => "required"
  | .nullish => "nullish"
  | .defined => "def"
  | .null => "null"
  | .undefined => "und"

/-- The number that decimal digits stand for. The last one counts the units. -/
def numeral (ds : List Char) : Nat := Nat.ofDigits 10 (ds.reverse.map fun c => c.toNat - '0'.toNat)

inductive Spells : List Char → Piece → Prop
  | state (w) : Spells (wordText w).toList (.state w)
  | length (op) {ds} {bound : UInt64} (hne : ds ≠ []) (hdigit : ∀ c ∈ ds, c.isDigit)
      (hbound : numeral ds = bound.toNat) :
      Spells ("len".toList ++ (op.symbol.toList ++ ds)) (.length ⟨op, bound⟩)
  | values : Spells "values:nonnull".toList (.values ⟨true⟩)

theorem ofText?_eq_some_iff {s : String} {w : StateWord} :
    StateWord.ofText? s = some w ↔ s = wordText w := by
  constructor
  · intro h
    unfold StateWord.ofText? at h
    split_ifs at h with hs hs hs hs hs
    all_goals
      cases h
      exact hs
  · rintro rfl
    cases w <;> rfl

theorem ofDigitChars_eq_numeral (ds : List Char) : Nat.ofDigitChars 10 ds 0 = numeral ds := by
  rw [numeral, Nat.ofDigits_eq_foldr, List.map_reverse, List.foldr_reverse, List.foldl_map,
    Nat.ofDigitChars_eq_foldl]
  apply congrArg (fun f => ds.foldl f 0)
  funext n c
  exact Nat.add_comm _ _

theorem bound?_eq_some_iff {ds : List Char} {bound : UInt64} : bound? ds = some bound ↔
    ds ≠ [] ∧ (∀ c ∈ ds, c.isDigit) ∧ numeral ds = bound.toNat := by
  rw [bound?, ofDigitChars_eq_numeral]
  simp only [List.all_eq_true]
  constructor
  · intro h
    split at h
    · next hds =>
        obtain rfl := Option.some.inj h
        exact ⟨hds.1, hds.2.1, (UInt64.toNat_ofNat_of_lt hds.2.2).symm⟩
    · cases h
  · rintro ⟨hne, hdigit, hbound⟩
    have hlt : numeral ds < UInt64.size := by
      rw [hbound]
      exact bound.toNat_lt
    rw [if_pos ⟨hne, hdigit, hlt⟩, hbound, UInt64.ofNat_toNat]

theorem bound?_toDigits (n : UInt64) : bound? (Nat.toDigits 10 n.toNat) = some n := by
  refine bound?_eq_some_iff.mpr ⟨Nat.toDigits_ne_nil, fun c hc => ?_, ?_⟩
  · exact Nat.isDigit_of_mem_toDigits (by decide) (by decide) hc
  · rw [← ofDigitChars_eq_numeral, Nat.ofDigitChars_ten_toDigits]

theorem eq_append_of_splitOp? {tail ds : List Char} {op : LengthOp}
    (h : splitOp? tail = some (op, ds)) : tail = op.symbol.toList ++ ds := by
  unfold splitOp? at h
  split at h
  all_goals cases h
  all_goals rfl

theorem splitOp?_append (op : LengthOp) {ds : List Char} (h : ds.head? ≠ some '=') :
    splitOp? (op.symbol.toList ++ ds) = some (op, ds) := by
  cases op with
  | eq | ge | le => rfl
  | gt | lt =>
      cases ds with
      | nil => rfl
      | cons c ds =>
          have hc : c ≠ '=' := fun hc => h (congrArg some hc)
          simp [LengthOp.symbol, splitOp?, hc]

theorem lengthRule?_eq_some_iff {tail : List Char} {r : LengthRule} : lengthRule? tail = some r ↔
    ∃ ds, tail = r.op.symbol.toList ++ ds ∧ bound? ds = some r.bound := by
  constructor
  · intro h
    cases hsplit : splitOp? tail with
    | none => simp [lengthRule?, hsplit] at h
    | some opds =>
        obtain ⟨op, ds⟩ := opds
        have hds : (bound? ds).map (LengthRule.mk op) = some r := by
          simpa [lengthRule?, hsplit, Option.map_eq_bind] using h
        obtain ⟨bound, hbound, rfl⟩ := Option.map_eq_some_iff.mp hds
        exact ⟨ds, eq_append_of_splitOp? hsplit, hbound⟩
  · rintro ⟨ds, rfl, hbound⟩
    have hhead : ds.head? ≠ some '=' := by
      intro hc
      have hdigit := (bound?_eq_some_iff.mp hbound).2.1 '=' (List.mem_of_head? hc)
      simp at hdigit
    simp [lengthRule?, splitOp?_append r.op hhead, hbound]

theorem lengthTail?_eq_some_iff {cs tail : List Char} : lengthTail? cs = some tail ↔
    cs = "len".toList ++ tail ∧ ∀ c ∈ tail.head?, c = '=' ∨ c = '<' ∨ c = '>' := by
  have hlen : cs = "len".toList ++ tail ↔ "len".toList.isPrefixOf? cs = some tail := by
    rw [List.isPrefixOf?_eq_some_iff_append_eq, eq_comm]
  rw [hlen, lengthTail?]
  rcases "len".toList.isPrefixOf? cs with _ | _ | ⟨c, r⟩
  · simp
  · constructor
    · rintro ⟨⟩
      exact ⟨rfl, by simp⟩
    · exact fun h => h.1
  · by_cases hc : c = '=' ∨ c = '<' ∨ c = '>'
    · simp only [if_pos hc]
      constructor
      · rintro ⟨⟩
        exact ⟨rfl, by simpa using hc⟩
      · exact fun h => h.1
    · simp only [if_neg hc]
      constructor
      · rintro ⟨⟩
      · rintro ⟨⟨⟩, h⟩
        exact absurd (h c rfl) hc

theorem symbol_ne_nil (op : LengthOp) : op.symbol.toList ≠ [] := by
  cases op <;> simp [LengthOp.symbol]

theorem head_symbol (op : LengthOp) :
    ∀ c ∈ op.symbol.toList.head?, c = '=' ∨ c = '<' ∨ c = '>' := by
  cases op <;> simp [LengthOp.symbol]

theorem wordText_ne (w : StateWord) (cs : List Char) :
    (wordText w).toList ≠ "len".toList ++ cs := by
  cases w <;> simp [wordText]

theorem spells_of_read {cs : List Char} {p : Piece} (h : Piece.read cs = .ok p) : Spells cs p := by
  cases hword : StateWord.ofText? (String.ofList cs) with
  | some w =>
      obtain rfl : Piece.state w = p := by simpa [Piece.read, hword] using h
      rw [← String.toList_ofList (l := cs), ofText?_eq_some_iff.mp hword]
      exact .state w
  | none =>
      cases htail : lengthTail? cs with
      | some tail =>
          cases hrule : lengthRule? tail with
          | none => simp [Piece.read, hword, htail, hrule] at h
          | some r =>
              obtain rfl : Piece.length r = p := by simpa [Piece.read, hword, htail, hrule] using h
              obtain ⟨ds, rfl, hbound⟩ := lengthRule?_eq_some_iff.mp hrule
              obtain ⟨hne, hdigit, hnumeral⟩ := bound?_eq_some_iff.mp hbound
              rw [(lengthTail?_eq_some_iff.mp htail).1]
              exact .length r.op hne hdigit hnumeral
      | none =>
          cases hvalues : "values:".toList.isPrefixOf? cs with
          | none => simp only [Piece.read, hword, htail, hvalues, reduceCtorEq] at h
          | some tail =>
              by_cases hnonnull : tail = "nonnull".toList
              · obtain rfl : Piece.values ⟨true⟩ = p := by
                  simpa only [Piece.read, hword, htail, hvalues, valuesRule?, if_pos hnonnull,
                    Except.ok.injEq] using h
                rw [← List.isPrefixOf?_eq_some_iff_append_eq.mp hvalues, hnonnull]
                exact .values
              · simp only [Piece.read, hword, htail, hvalues, valuesRule?, if_neg hnonnull,
                  reduceCtorEq] at h

theorem read_of_spells {cs : List Char} {p : Piece} (h : Spells cs p) : Piece.read cs = .ok p := by
  cases h with
  | state w =>
      have hw : StateWord.ofText? (String.ofList (wordText w).toList) = some w := by
        rw [ofText?_eq_some_iff, String.ofList_toList]
      simp only [Piece.read, hw]
  | @length op ds bound hne hdigit hbound =>
      have hw :
          StateWord.ofText? (String.ofList ("len".toList ++ (op.symbol.toList ++ ds))) = none := by
        rw [Option.eq_none_iff_forall_ne_some]
        intro w hw
        apply wordText_ne w (op.symbol.toList ++ ds)
        rw [← ofText?_eq_some_iff.mp hw, String.toList_ofList]
      have htail : lengthTail? ("len".toList ++ (op.symbol.toList ++ ds)) =
          some (op.symbol.toList ++ ds) := by
        refine lengthTail?_eq_some_iff.mpr ⟨rfl, ?_⟩
        rw [List.head?_append_of_ne_nil _ (symbol_ne_nil op)]
        exact head_symbol op
      have hrule : lengthRule? (op.symbol.toList ++ ds) = some ⟨op, bound⟩ :=
        lengthRule?_eq_some_iff.mpr ⟨ds, rfl, bound?_eq_some_iff.mpr ⟨hne, hdigit, hbound⟩⟩
      simp only [Piece.read, hw, htail, hrule]
  | values => rfl

theorem read_eq_ok_iff {cs : List Char} {p : Piece} : Piece.read cs = .ok p ↔ Spells cs p :=
  ⟨spells_of_read, read_of_spells⟩

end PlainTwin.PieceText
