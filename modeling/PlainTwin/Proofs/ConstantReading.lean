import PlainTwin.Proofs.KeyNames
import PlainTwin.Proofs.PieceText

namespace PlainTwin.ConstantReading

open Constraint KeyNames PieceText Source

variable {α : Type}

def splitPath : Tokens → List String × Tokens
  | .mark ':' true :: .mark ':' _ :: .ident n :: ts => (n :: (splitPath ts).1, (splitPath ts).2)
  | ts => ([], ts)

def fieldValue? : Tokens → Option (String × Tokens)
  | .ident n :: .mark ':' false :: value => some (n, value)
  | _ => none

/-- The values that a literal of a struct gives to its fields. Each field has to be given one, in
whatever order. -/
def record? (type names : List String) (ts : Tokens) : Option (List (String × Tokens)) :=
  match splitPath ts with
  | (p, [.group .brace content]) => do
    let fs ← (pieces content).mapM fieldValue?
    if p = type ∧ (fs.map Prod.fst).isPerm names then some fs else none
  | _ => none

def option? (read? : Tokens → Option α) (ts : Tokens) : Option (Option α) :=
  match splitPath ts with
  | (["core", "option", "Option", "Some"], [.group .paren content]) => some <$> read? content
  | (["core", "option", "Option", "None"], []) => some none
  | _ => none

def flag? : Tokens → Option Bool
  | [.ident "true"] => some true
  | [.ident "false"] => some false
  | _ => none

def count? : Tokens → Option UInt64
  | [.literal .int text] =>
    let cs := text.toList
    if cs.dropWhile Char.isDigit = "usize".toList then Tag.bound? (cs.takeWhile Char.isDigit)
    else none
  | _ => none

def op? (ts : Tokens) : Option LengthOp :=
  match splitPath ts with
  | (["und", "constraint", "LenOp", name], []) => match name with
    | "Eq" => some .eq
    | "Gt" => some .gt
    | "Ge" => some .ge
    | "Lt" => some .lt
    | "Le" => some .le
    | _ => none
  | _ => none

def states? (ts : Tokens) : Option StateSet := do
  let fs ← record? ["und", "constraint", "StateConstraint"] ["def", "null", "und"] ts
  return {
    defined := ← flag? (← fs.lookup "def")
    null := ← flag? (← fs.lookup "null")
    undefined := ← flag? (← fs.lookup "und") }

def length? (ts : Tokens) : Option LengthRule := do
  let fs ← record? ["und", "constraint", "LenConstraint"] ["op", "len"] ts
  return { op := ← op? (← fs.lookup "op"), bound := ← count? (← fs.lookup "len") }

def values? (ts : Tokens) : Option ValuesRule := do
  let fs ← record? ["und", "constraint", "ValuesConstraint"] ["nonnull"] ts
  return { nonnull := ← flag? (← fs.lookup "nonnull") }

def constraint? (ts : Tokens) : Option Constraint := do
  let fs ← record? ["und", "Constraint"] ["state", "len", "values"] ts
  return {
    states := ← option? states? (← fs.lookup "state")
    length := ← option? length? (← fs.lookup "len")
    values := ← option? values? (← fs.lookup "values") }

/-- No token is the mark `c` itself. Those inside groups do not count. -/
def Lacks (c : Char) (ts : Tokens) : Prop := ∀ t ∈ ts, t.isMark c = false

theorem lacks_append {c : Char} {ts us : Tokens} : Lacks c (ts ++ us) ↔ Lacks c ts ∧ Lacks c us :=
  List.forall_mem_append

theorem lacks_path {c : Char} (hc : c ≠ ':') (names : List String) : Lacks c (path names) := by
  intro t ht
  obtain ⟨n, -, ht⟩ := List.mem_flatMap.mp ht
  obtain rfl | rfl | rfl : t = .mark ':' true ∨ t = .mark ':' false ∨ t = .ident n := by
    simpa [op, marks] using ht
  · simpa [Token.isMark] using hc
  · simpa [Token.isMark] using hc
  · rfl

theorem lacks_singleton {c : Char} {t : Token} : Lacks c [t] ↔ t.isMark c = false :=
  List.forall_mem_singleton

theorem lacks_optionLiteral {c : Char} (hc : c ≠ ':') (literal : α → Tokens) (o : Option α) :
    Lacks c (optionLiteral literal o) := by
  cases o with
  | none => exact lacks_path hc _
  | some a => exact lacks_append.mpr ⟨lacks_path hc _, lacks_singleton.mpr rfl⟩

theorem splitPath_path (names : List String) {ts : Tokens} (h : splitPath ts = ([], ts)) :
    splitPath (path names ++ ts) = (names, ts) := by
  induction names with
  | nil => exact h
  | cons n names ih =>
      change (n :: (splitPath (path names ++ ts)).1, (splitPath (path names ++ ts)).2) = _
      rw [ih]

theorem commaSeparated_singleton (i : Tokens) : commaSeparated [i] = i := by
  rw [commaSeparated, Source.separated, List.intercalate_singleton]

theorem commaSeparated_cons_cons (i j : Tokens) (items : List Tokens) :
    commaSeparated (i :: j :: items) = i ++ .mark ',' false :: commaSeparated (j :: items) := by
  simp [commaSeparated, Source.separated, List.intercalate_cons_cons, op, marks]

theorem pieces_commaSeparated {items : List Tokens} (hne : items ≠ [])
    (h : ∀ i ∈ items, i ≠ [] ∧ Lacks ',' i) : pieces (commaSeparated items) = items := by
  induction items with
  | nil => exact absurd rfl hne
  | cons i items ih =>
      rw [List.forall_mem_cons] at h
      obtain ⟨⟨hi, hcomma⟩, hitems⟩ := h
      cases items with
      | nil =>
          rw [commaSeparated_singleton]
          exact pieces_of_no_comma hcomma hi
      | cons j items =>
          rw [commaSeparated_cons_cons, pieces_append_comma hcomma rfl,
            ih (List.cons_ne_nil _ _) hitems]

theorem mapM_fieldValue? (fs : List (String × Tokens)) :
    (fs.map fun f => initialised f.1 f.2).mapM fieldValue? = some fs := by
  induction fs with
  | nil => rfl
  | cons f fs ih =>
      have hf : fieldValue? (initialised f.1 f.2) = some f := rfl
      rw [List.map_cons, List.mapM_cons, hf, ih]
      rfl

theorem record?_literal (type : List String) {names : List String} (fs : List (String × Tokens))
    (hne : fs ≠ []) (hnames : (fs.map Prod.fst).Perm names) (h : ∀ f ∈ fs, Lacks ',' f.2) :
    record? type names (path type ++
      brace (commaSeparated (fs.map fun f => initialised f.1 f.2))) = some fs := by
  have hpieces : pieces (commaSeparated (fs.map fun f => initialised f.1 f.2)) =
      fs.map fun f => initialised f.1 f.2 := by
    refine pieces_commaSeparated (by simpa using hne) (List.forall_mem_map.mpr fun f hf => ?_)
    refine ⟨List.cons_ne_nil _ _, lacks_append.mpr ⟨?_, h f hf⟩⟩
    simp [Lacks, words, op, marks, Token.isMark]
  rw [record?, brace, splitPath_path type rfl]
  simp only [hpieces, mapM_fieldValue?, Option.bind_eq_bind, Option.bind_some,
    List.isPerm_iff.mpr hnames, and_self, if_true]

theorem option?_optionLiteral {read? : Tokens → Option α} {literal : α → Tokens}
    (h : ∀ a, read? (literal a) = some a) (o : Option α) :
    option? read? (optionLiteral literal o) = some o := by
  cases o with
  | none =>
      rw [option?, optionLiteral, noneOf, ← List.append_nil (path _), splitPath_path _ rfl]
      rfl
  | some a =>
      rw [option?, optionLiteral, someOf, paren, splitPath_path _ rfl]
      simp only [h, Option.map_eq_map, Option.map_some]

theorem flag?_flag (b : Bool) : flag? [flag b] = some b := by
  cases b <;> rfl

theorem count?_countLiteral (n : UInt64) : count? [countLiteral n.toNat] = some n := by
  have hbound := bound?_toDigits n
  obtain ⟨-, hdigit, -⟩ := bound?_eq_some_iff.mp hbound
  have htext : (n.toNat.repr ++ "usize").toList = Nat.toDigits 10 n.toNat ++ "usize".toList := by
    rw [String.toList_append, Nat.toList_repr]
  have hend : "usize".toList.takeWhile Char.isDigit = [] ∧
      "usize".toList.dropWhile Char.isDigit = "usize".toList := ⟨rfl, rfl⟩
  simp only [count?, countLiteral, htext, List.takeWhile_append_of_pos hdigit,
    List.dropWhile_append_of_pos hdigit, hend, List.append_nil, if_true, hbound]

theorem op?_path (op : LengthOp) :
    op? (path ["und", "constraint", "LenOp", opName op]) = some op := by
  rw [op?, ← List.append_nil (path _), splitPath_path _ rfl]
  cases op <;> rfl

theorem states?_statesLiteral (s : StateSet) : states? (statesLiteral s) = some s := by
  have hfields := record?_literal ["und", "constraint", "StateConstraint"]
    [("def", [flag s.defined]), ("null", [flag s.null]), ("und", [flag s.undefined])]
    (List.cons_ne_nil _ _) (.refl _) (by simp [lacks_singleton, flag, Token.isMark])
  simp only [List.map_cons, List.map_nil] at hfields
  simp [states?, statesLiteral, hfields, List.lookup_cons, flag?_flag]

example : states? (path ["und", "constraint", "StateConstraint"] ++ brace (commaSeparated [
    initialised "und" [flag true], initialised "def" [flag false],
    initialised "null" [flag true]])) = some ⟨false, true, true⟩ := by rfl

theorem length?_lengthLiteral (r : LengthRule) : length? (lengthLiteral r) = some r := by
  have hfields := record?_literal ["und", "constraint", "LenConstraint"]
    [("op", path ["und", "constraint", "LenOp", opName r.op]),
      ("len", [countLiteral r.bound.toNat])]
    (List.cons_ne_nil _ _) (.refl _)
    (by simp [lacks_path, lacks_singleton, countLiteral, Token.isMark])
  simp only [List.map_cons, List.map_nil] at hfields
  simp [length?, lengthLiteral, hfields, List.lookup_cons, op?_path, count?_countLiteral]

theorem values?_valuesLiteral (r : ValuesRule) : values? (valuesLiteral r) = some r := by
  have hfields := record?_literal ["und", "constraint", "ValuesConstraint"]
    [("nonnull", [flag r.nonnull])]
    (List.cons_ne_nil _ _) (.refl _) (by simp [lacks_singleton, flag, Token.isMark])
  simp only [List.map_cons, List.map_nil, commaSeparated_singleton] at hfields
  simp [values?, valuesLiteral, hfields, flag?_flag]

theorem constraint?_literal (c : Constraint) : constraint? c.literal = some c := by
  have hfields := record?_literal ["und", "Constraint"]
    [("state", optionLiteral statesLiteral c.states), ("len", optionLiteral lengthLiteral c.length),
      ("values", optionLiteral valuesLiteral c.values)]
    (List.cons_ne_nil _ _) (.refl _) (by simp [lacks_optionLiteral])
  simp only [List.map_cons, List.map_nil] at hfields
  simp [constraint?, literal, hfields, List.lookup_cons,
    option?_optionLiteral states?_statesLiteral, option?_optionLiteral length?_lengthLiteral,
    option?_optionLiteral values?_valuesLiteral]

theorem literal_injective : Function.Injective literal := by
  intro c d h
  have hread : constraint? d.literal = some c := h ▸ constraint?_literal c
  exact Option.some.inj (hread.symm.trans (constraint?_literal d))

end PlainTwin.ConstantReading
