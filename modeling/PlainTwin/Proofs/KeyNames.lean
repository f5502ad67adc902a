import Mathlib.Data.List.Flatten
import Mathlib.Data.List.Forall2
import Mathlib.Data.List.TakeWhile
import PlainTwin.Twin.File
import PlainTwin.Twin.Schema

namespace PlainTwin.KeyNames

open Source

abbrev isComma (t : Token) : Bool := t.isMark ','

/-- The options of an attribute, or the fields of a literal, as their commas divide them. A comma at
the end adds none. -/
def pieces (args : Tokens) : List Tokens :=
  let ps := args.splitOnP isComma
  if (ps.getLastD []).isEmpty then ps.dropLast else ps

def keyName? : Tokens → Option (String × String)
  | [.ident n, .mark '=' _, .literal (.text s) _] =>
    if n = "rename" ∨ n = "alias" then some (n, s) else none
  | _ => none

def isBareDefault : Tokens → Bool
  | [.ident n] => n == "default"
  | _ => false

def keyNames (a : Attribute) : List (String × String) :=
  if isSerde a then match a.args with
    | .list _ args => (pieces args).filterMap keyName?
    | _ => []
  else []

/-- Whether every option is a name of the key or a bare default. -/
def holdsNamesOnly (a : Attribute) : Bool :=
  match a.args with
  | .list _ args => (pieces args).all fun q => (keyName? q).isSome || isBareDefault q
  | _ => false

theorem pieces_of_no_comma {q : Tokens} (h : ∀ t ∈ q, isComma t = false) (hq : q ≠ []) :
    pieces q = [q] := by
  simp [pieces, List.splitOnP_eq_singleton h, hq]

theorem pieces_append_comma {q : Tokens} (h : ∀ t ∈ q, isComma t = false) {c : Token}
    (hc : isComma c) (r : Tokens) : pieces (q ++ c :: r) = q :: pieces r := by
  obtain ⟨p, ps, hp⟩ := List.exists_cons_of_ne_nil (List.splitOnP_ne_nil isComma r)
  have hl : (q :: p :: ps).getLastD [] = (p :: ps).getLastD [] := by simp [List.getLastD]
  simp only [pieces, List.splitOnP_append_cons_of_forall_mem h c hc, hp, hl]
  split <;> simp

def beforeComma (ts : Tokens) : Tokens := ts.takeWhile (!isComma ·)

def fromComma (ts : Tokens) : Tokens := ts.dropWhile (!isComma ·)

theorem beforeComma_append (ts : Tokens) : beforeComma ts ++ fromComma ts = ts :=
  List.takeWhile_append_dropWhile

theorem isComma_of_mem {ts : Tokens} {t : Token} (h : t ∈ beforeComma ts) : isComma t = false := by
  simpa using List.mem_takeWhile_imp h

theorem fromComma_cases (ts : Tokens) :
    fromComma ts = [] ∨ ∃ j r, fromComma ts = .mark ',' j :: r := by
  cases h : fromComma ts with
  | nil => exact .inl rfl
  | cons c r =>
    have hc : ∀ w, (!isComma ((fromComma ts).head w)) = false :=
      List.head_dropWhile_not (!isComma ·)
    cases c <;> simp [h, Token.isMark] at hc
    exact .inr ⟨_, r, by rw [hc]⟩

theorem pieces_eq {ts : Tokens} (h : ts ≠ []) :
    pieces ts = beforeComma ts :: pieces ((fromComma ts).drop 1) := by
  have hq : ∀ t ∈ beforeComma ts, isComma t = false := fun t => isComma_of_mem
  have hts := beforeComma_append ts
  obtain hr | ⟨j, r, hr⟩ := fromComma_cases ts <;> rw [hr] at hts ⊢
  · rw [List.append_nil] at hts
    rw [hts] at hq ⊢
    exact pieces_of_no_comma hq h
  · conv_lhs => rw [← hts]
    exact pieces_append_comma hq rfl r

theorem length_fromComma_lt {ts : Tokens} (hts : ts ≠ []) :
    ((fromComma ts).drop 1).length < ts.length := by
  have hlen := congrArg List.length (beforeComma_append ts)
  have hpos := List.length_pos_iff.mpr hts
  simp only [List.length_append, List.length_drop] at *
  omega

section Reading

variable {ts rest : Tokens} {p : ModulePath} {v : OptionValue}

theorem eq_of_nameAfter {n : String} (h : Arguments.nameAfter ts = .ok (n, rest)) :
    ts = .ident n :: rest := by
  unfold Arguments.nameAfter at h
  split at h
  · cases h; rfl
  · cases h

theorem past_of_startsOp (h : ts.startsOp "::") :
    ∃ front, ts = front ++ ts.past 2 ∧ ∀ t ∈ front, isComma t = false := by
  match ts with
  | [] => simp [Tokens.startsOp, Tokens.startsMarks] at h
  | [_] => simp [Tokens.startsOp, Tokens.startsMarks] at h
  | t :: u :: ts =>
    refine ⟨[t, u], rfl, ?_⟩
    cases t <;> cases u <;>
      simp only [Tokens.startsOp, String.reduceToList, Tokens.startsMarks, Token.isMark,
        Bool.and_eq_true, beq_iff_eq, Bool.false_and, Bool.and_false, reduceCtorEq] at h
    obtain ⟨⟨rfl, -⟩, rfl⟩ := h
    simp [Token.isMark]

theorem moreNames_eq (k : Nat) {names : List String}
    (h : Arguments.moreNames k ts = .ok (names, rest)) :
    (∃ front, ts = front ++ rest ∧ ∀ t ∈ front, isComma t = false) ∧ (names = [] → ts = rest) := by
  induction k generalizing ts names with
  | zero =>
    obtain ⟨rfl, rfl⟩ : [] = names ∧ ts = rest := by simpa [Arguments.moreNames] using h
    exact ⟨⟨[], rfl, by simp⟩, fun _ => rfl⟩
  | succ k ih =>
    simp only [Arguments.moreNames] at h
    split at h
    case isTrue hs =>
      cases hn : Arguments.nameAfter (ts.past 2) with
      | error e => simp [hn, bind, Except.bind] at h
      | ok a =>
        cases hm : Arguments.moreNames k a.2 with
        | error e => simp [hn, hm, bind, Except.bind] at h
        | ok b =>
          obtain ⟨rfl, rfl⟩ : a.1 :: b.1 = names ∧ b.2 = rest := by
            simpa [hn, hm, bind, Except.bind, pure, Except.pure] using h
          obtain ⟨front, hf, hc⟩ := past_of_startsOp hs
          obtain ⟨⟨more, hm, hd⟩, -⟩ := ih hm
          refine ⟨⟨front ++ .ident a.1 :: more, ?_, ?_⟩, by simp⟩
          · rw [hf, eq_of_nameAfter hn, hm]; simp
          · simp only [List.mem_append, List.mem_cons]
            rintro t (ht | rfl | ht)
            exacts [hc t ht, rfl, hd t ht]
    case isFalse =>
      obtain ⟨rfl, rfl⟩ : [] = names ∧ ts = rest := by simpa using h
      exact ⟨⟨[], rfl, by simp⟩, fun _ => rfl⟩

theorem path_eq (h : Arguments.path ts = .ok (p, rest)) :
    (∃ front, ts = front ++ rest ∧ ∀ t ∈ front, isComma t = false) ∧
      ∀ n, p.isName n → ts = .ident n :: rest := by
  have hlead : ∃ lead, ts = lead ++ (if ts.startsOp "::" then ts.past 2 else ts) ∧
      (∀ t ∈ lead, isComma t = false) ∧ (ts.startsOp "::" = false → lead = []) := by
    split
    case isTrue hs =>
      obtain ⟨lead, hl, hc⟩ := past_of_startsOp hs
      exact ⟨lead, hl, hc, by simp [hs]⟩
    case isFalse => exact ⟨[], rfl, by simp, fun _ => rfl⟩
  obtain ⟨lead, hl, hc, habs⟩ := hlead
  simp only [Arguments.path] at h
  split at h
  case h_1 n rest' heq =>
    cases hm : Arguments.moreNames rest'.length rest' with
    | error e => simp [hm, bind, Except.bind] at h
    | ok b =>
      obtain ⟨rfl, rfl⟩ : ⟨ts.startsOp "::", n :: b.1⟩ = p ∧ b.2 = rest := by
        simpa [hm, bind, Except.bind, pure, Except.pure] using h
      obtain ⟨⟨front, hf, hd⟩, hnil⟩ := moreNames_eq _ hm
      rw [heq] at hl
      refine ⟨⟨lead ++ .ident n :: front, ?_, ?_⟩, fun m hp => ?_⟩
      · rw [hl, hf]; simp
      · simp only [List.mem_append, List.mem_cons]
        rintro t (ht | rfl | ht)
        exacts [hc t ht, rfl, hd t ht]
      · obtain ⟨ha, rfl, hb⟩ : ts.startsOp "::" = false ∧ n = m ∧ b.1 = [] := by
          simpa [ModulePath.isName] using hp
        rw [hl, habs ha, ← hnil hb]; rfl
  case h_2 => cases h
  case h_3 => cases h

/-- What can stand after the path of an option: a text that is set, something else that is set,
nothing, or what cannot be read. -/
theorem readValue_cases (ts : Tokens) :
    (∃ j ts' s x, ts = .mark '=' j :: ts' ∧ beforeComma ts' = [.literal (.text s) x] ∧
      SerdeOption.readValue ts = (.text s, some (fromComma ts))) ∨
    (∃ j ts' o, ts = .mark '=' j :: ts' ∧ SerdeOption.readValue ts = (.other, o) ∧
      ∀ r ∈ o, r = fromComma ts) ∨
    (beforeComma ts = [] ∧ SerdeOption.readValue ts = (.bare, some ts)) ∨
    SerdeOption.readValue ts = (.other, none) := by
  by_cases heq : ts.startsOp "="
  · obtain ⟨j, ts', rfl⟩ : ∃ j ts', ts = .mark '=' j :: ts' := by
      cases ts with
      | nil => simp [Tokens.startsOp, Tokens.startsMarks] at heq
      | cons t ts =>
          cases t <;> simp [Tokens.startsOp, Tokens.startsMarks, Token.isMark] at heq
          exact ⟨_, ts, by rw [heq]⟩
    by_cases ht : ∃ s x, beforeComma ts' = [.literal (.text s) x]
    · obtain ⟨s, x, ht⟩ := ht
      have hvalue : ts'.takeWhile (!Token.isMark ',' ·) = [.literal (.text s) x] := ht
      refine .inl ⟨j, ts', s, x, rfl, ht, ?_⟩
      rw [SerdeOption.readValue, if_pos heq]
      simp only [Tokens.past, List.drop_succ_cons, List.drop_zero, hvalue]
      rfl
    · refine .inr (.inl ⟨j, ts', if isValue (beforeComma ts') then some (fromComma ts') else none,
        rfl, ?_, ?_⟩)
      · rw [SerdeOption.readValue, if_pos heq]
        simp only
        split
        · next s x hvalue => exact absurd ⟨s, x, hvalue⟩ ht
        · rfl
      · split <;> simp [fromComma, isComma, Token.isMark]
  · by_cases hb : ts.isEmpty || ts.startsOp ","
    · refine .inr (.inr (.inl ⟨?_, by simp [SerdeOption.readValue, heq, hb]⟩))
      cases ts with
      | nil => rfl
      | cons t ts =>
          have ht : isComma t := by simpa [Tokens.startsOp, Tokens.startsMarks] using hb
          simp [beforeComma, ht]
    · exact .inr (.inr (.inr (by simp [SerdeOption.readValue, heq, hb])))

theorem piece_of_read {o : Option Tokens} (hp : Arguments.path ts = .ok (p, rest))
    (hv : SerdeOption.readValue rest = (v, o)) :
    (∀ r ∈ o, r = fromComma ts) ∧
      (∀ n s, p.isName n → v = .text s →
        ∃ j x, beforeComma ts = [.ident n, .mark '=' j, .literal (.text s) x]) ∧
      ∀ n, p.isName n → v = .bare → beforeComma ts = [.ident n] := by
  obtain ⟨⟨front, rfl, hc⟩, hname⟩ := path_eq hp
  have hr : fromComma (front ++ rest) = fromComma rest := by
    simp only [fromComma]
    rw [List.dropWhile_append_of_pos]
    simpa using hc
  have hb : ∀ n, p.isName n → beforeComma (front ++ rest) = .ident n :: beforeComma rest :=
    fun n hn => by rw [hname n hn]; rfl
  rw [hr]
  obtain ⟨j, ts', s, x, rfl, ht, hread⟩ | ⟨j, ts', o', rfl, hread, ho⟩ | ⟨hnil, hread⟩ | hread :=
    readValue_cases rest <;> rw [hread] at hv <;> cases hv
  · refine ⟨by simp, fun n s' hn hs => ?_, fun _ _ => by simp⟩
    cases hs
    exact ⟨j, x, by rw [hb n hn]; simp [beforeComma, ← ht, Token.isMark]⟩
  · exact ⟨ho, by simp, by simp⟩
  · refine ⟨?_, by simp, fun n hn _ => by rw [hb n hn, hnil]⟩
    rintro r ⟨⟩
    have := beforeComma_append rest
    rw [hnil] at this
    exact this.symm
  · exact ⟨by simp, by simp, by simp⟩

theorem path_ident (n : String) (h : rest.startsOp "::" = false) :
    Arguments.path (.ident n :: rest) = .ok (⟨false, [n]⟩, rest) := by
  have hm : Arguments.moreNames rest.length rest = .ok ([], rest) := by
    cases rest with
    | nil => rfl
    | cons t ts => simp [Arguments.moreNames, h]
  simp [Arguments.path, Tokens.startsOp, Tokens.startsMarks, Token.isMark, hm, bind, Except.bind,
    pure, Except.pure]

end Reading

theorem keyName?_eq_some {q : Tokens} {n s : String} : keyName? q = some (n, s) ↔
    (n = "rename" ∨ n = "alias") ∧ ∃ j x, q = [.ident n, .mark '=' j, .literal (.text s) x] := by
  unfold keyName?
  split
  · split <;> aesop
  · simp_all

theorem isBareDefault_iff {q : Tokens} : isBareDefault q ↔ q = [.ident "default"] := by
  unfold isBareDefault
  split <;> simp_all

abbrev isNameOrDefault (q : Tokens) : Bool := (keyName? q).isSome || isBareDefault q

theorem isNameOrDefault_of_read {ts rest : Tokens} {p : ModulePath} {v : OptionValue}
    {o : Option Tokens} (hp : Arguments.path ts = .ok (p, rest))
    (hv : SerdeOption.readValue rest = (v, o)) (ha : (SerdeOption.mk p v).isTypeAgnostic) :
    isNameOrDefault (beforeComma ts) := by
  obtain ⟨-, htext, hbare⟩ := piece_of_read hp hv
  simp only [SerdeOption.isTypeAgnostic, SerdeOption.isNamed, Bool.or_eq_true,
    Bool.and_eq_true] at ha
  rcases ha with ⟨hn, ht⟩ | ⟨hn, hb⟩
  · obtain ⟨s, rfl⟩ : ∃ s, v = .text s := by
      cases v <;> simp_all [SerdeOption.text?]
    have hname : ∃ n, (n = "rename" ∨ n = "alias") ∧ p.isName n := by
      rcases hn with hn | hn
      exacts [⟨_, .inl rfl, hn⟩, ⟨_, .inr rfl, hn⟩]
    obtain ⟨n, hor, hn⟩ := hname
    have hk : keyName? (beforeComma ts) = some (n, s) :=
      keyName?_eq_some.mpr ⟨hor, htext n s hn rfl⟩
    simp [hk]
  · obtain rfl : v = .bare := by
      cases v <;> simp_all [SerdeOption.isBare]
    simp [isBareDefault_iff.mpr (hbare _ hn rfl)]

theorem beforeComma_fromComma (ts : Tokens) : beforeComma (fromComma ts) = [] := by
  obtain h | ⟨j, r, h⟩ := fromComma_cases ts <;> rw [h] <;> rfl

theorem fromComma_fromComma (ts : Tokens) : fromComma (fromComma ts) = fromComma ts := by
  simpa [beforeComma_fromComma] using beforeComma_append (fromComma ts)

theorem readValue_text (j : Bool) (s x : String) (ts : Tokens) :
    SerdeOption.readValue (.mark '=' j :: .literal (.text s) x :: fromComma ts) =
      (.text s, some (fromComma ts)) := by
  have hb : (Token.literal (.text s) x :: fromComma ts).takeWhile (!isComma ·) =
      [.literal (.text s) x] := congrArg (List.cons _) (beforeComma_fromComma ts)
  have hr : (Token.literal (.text s) x :: fromComma ts).dropWhile (!isComma ·) = fromComma ts :=
    fromComma_fromComma ts
  have hs : Tokens.startsOp "=" (.mark '=' j :: .literal (.text s) x :: fromComma ts) := rfl
  rw [SerdeOption.readValue, if_pos hs]
  simp only [Tokens.past, List.drop_succ_cons, List.drop_zero, hb, hr]

theorem readValue_bare (ts : Tokens) :
    SerdeOption.readValue (fromComma ts) = (.bare, some (fromComma ts)) := by
  obtain h | ⟨j, r, h⟩ := fromComma_cases ts <;> rw [h] <;> rfl

theorem read_of_isNameOrDefault {ts : Tokens} (h : isNameOrDefault (beforeComma ts)) :
    ∃ p rest v, Arguments.path ts = .ok (p, rest) ∧
      SerdeOption.readValue rest = (v, some (fromComma ts)) ∧
      (SerdeOption.mk p v).isTypeAgnostic ∧
      p.isName "default" = isBareDefault (beforeComma ts) := by
  have hts := (beforeComma_append ts).symm
  simp only [isNameOrDefault, Bool.or_eq_true, Option.isSome_iff_exists] at h
  rcases h with ⟨⟨n, s⟩, hk⟩ | hd
  · obtain ⟨hn, j, x, hq⟩ := keyName?_eq_some.mp hk
    rw [hq] at hts
    refine ⟨⟨false, [n]⟩, .mark '=' j :: .literal (.text s) x :: fromComma ts, .text s, ?_,
      readValue_text j s x ts, ?_, ?_⟩
    · conv_lhs => rw [hts]
      exact path_ident n rfl
    · rcases hn with rfl | rfl <;> rfl
    · rw [hq]
      rcases hn with rfl | rfl <;> rfl
  · rw [isBareDefault_iff.mp hd] at hts
    refine ⟨⟨false, ["default"]⟩, fromComma ts, .bare, ?_, readValue_bare ts, rfl, hd.symm⟩
    conv_lhs => rw [hts]
    refine path_ident _ ?_
    obtain h | ⟨j, r, h⟩ := fromComma_cases ts <;> rw [h] <;> rfl

def following (k : Nat) : Option Tokens → SerdeOptions
  | none => ⟨[], false⟩
  | some r => if (r.drop 1).isEmpty then ⟨[], true⟩ else SerdeOption.readFor k (r.drop 1)

theorem readFor_of_read {k : Nat} {ts rest : Tokens} {p : ModulePath} {v : OptionValue}
    {o : Option Tokens} (hp : Arguments.path ts = .ok (p, rest))
    (hv : SerdeOption.readValue rest = (v, o)) :
    SerdeOption.readFor (k + 1) ts = ⟨⟨p, v⟩ :: (following k o).options, (following k o).complete⟩ := by
  simp only [SerdeOption.readFor, hp, hv]
  match o with
  | none | some [] | some [_] | some (_ :: _ :: _) => rfl

theorem isTypeAgnostic_cons (o : SerdeOption) (s : SerdeOptions) :
    SerdeOptions.isTypeAgnostic ⟨o :: s.options, s.complete⟩ =
      (o.isTypeAgnostic && s.isTypeAgnostic) := by
  simp only [SerdeOptions.isTypeAgnostic, List.all_cons]
  cases s.complete <;> cases o.isTypeAgnostic <;> rfl

theorem readFor_isTypeAgnostic (k : Nat) {ts : Tokens} (hk : ts.length ≤ k) (hts : ts ≠ []) :
    (SerdeOption.readFor k ts).isTypeAgnostic = (pieces ts).all isNameOrDefault := by
  induction k generalizing ts with
  | zero => simp_all
  | succ k ih =>
    have hlt := length_fromComma_lt hts
    have hfollowing : (following k (some (fromComma ts))).isTypeAgnostic =
        (pieces ((fromComma ts).drop 1)).all isNameOrDefault := by
      simp only [following]
      split
      case isTrue h => rw [List.isEmpty_iff.mp h]; rfl
      case isFalse h => exact ih (by omega) (by simpa using h)
    rw [pieces_eq hts, List.all_cons]
    cases hq : isNameOrDefault (beforeComma ts) with
    | true =>
      obtain ⟨p, rest, v, hp, hv, ha, -⟩ := read_of_isNameOrDefault hq
      rw [readFor_of_read hp hv, isTypeAgnostic_cons, ha, hfollowing]
    | false =>
      rw [Bool.false_and]
      cases hp : Arguments.path ts with
      | error e => simp [SerdeOption.readFor, hp, SerdeOptions.isTypeAgnostic]
      | ok a =>
        obtain ⟨v, o, hv⟩ : ∃ v o, SerdeOption.readValue a.2 = (v, o) := ⟨_, _, rfl⟩
        have hn : (SerdeOption.mk a.1 v).isTypeAgnostic = false := by
          rw [Bool.eq_false_iff]
          intro h
          rw [isNameOrDefault_of_read hp hv h] at hq
          cases hq
        rw [readFor_of_read hp hv, isTypeAgnostic_cons, hn, Bool.false_and]

theorem ofAttribute_isTypeAgnostic (a : Attribute) :
    (SerdeOptions.ofAttribute a).isTypeAgnostic = holdsNamesOnly a := by
  unfold SerdeOptions.ofAttribute holdsNamesOnly
  match h : a.args with
  | .bare | .value _ => rfl
  | .list d [] => rfl
  | .list d (t :: ts) => exact readFor_isTypeAgnostic _ le_rfl (by simp)

theorem mem_pieces_of_mem_options (k : Nat) {ts : Tokens} {o : SerdeOption} {n s : String}
    (ho : o ∈ (SerdeOption.readFor k ts).options) (hn : o.isNamed n) (hs : o.text? = some s) :
    ∃ j x, [.ident n, .mark '=' j, .literal (.text s) x] ∈ pieces ts := by
  induction k generalizing ts with
  | zero => simp [SerdeOption.readFor] at ho
  | succ k ih =>
    cases hp : Arguments.path ts with
    | error e => simp [SerdeOption.readFor, hp] at ho
    | ok a =>
      have hts : ts ≠ [] := by
        rintro rfl
        cases hp
      obtain ⟨v, r, hv⟩ : ∃ v r, SerdeOption.readValue a.2 = (v, r) := ⟨_, _, rfl⟩
      obtain ⟨hrest, htext, -⟩ := piece_of_read hp hv
      rw [readFor_of_read hp hv] at ho
      rw [pieces_eq hts]
      rcases List.mem_cons.mp ho with rfl | ho
      · have hv : v = .text s := by
          cases v <;> simp_all [SerdeOption.text?]
        obtain ⟨j, x, hq⟩ := htext n s hn hv
        exact ⟨j, x, by rw [hq]; exact List.mem_cons_self⟩
      · match r, hrest with
        | none, _ => simp [following] at ho
        | some r, hrest =>
          cases hrest r rfl
          simp only [following] at ho
          split at ho
          · simp at ho
          · obtain ⟨j, x, hq⟩ := ih ho
            exact ⟨j, x, List.mem_cons_of_mem _ hq⟩

def renames (a : Attribute) : List String :=
  if isSerde a then
    ((SerdeOptions.ofAttribute a).options.filter (·.isNamed "rename")).filterMap SerdeOption.text?
  else []

theorem key_eq (name : String) (attrs : List Attribute) :
    (FieldRule.ofAttributes name attrs).key =
      (attrs.flatMap renames).head?.getD (bareName name) := by
  have h : attrs.flatMap renames = (((attrs.filter isSerde).flatMap fun a =>
      (SerdeOptions.ofAttribute a).options).filter (·.isNamed "rename")).filterMap
        SerdeOption.text? := by
    induction attrs with
    | nil => rfl
    | cons a attrs ih =>
      rw [List.flatMap_cons, ih, List.filter_cons]
      cases hs : isSerde a <;> simp [renames, hs]
  rw [h, List.head?_filterMap]
  rfl

theorem renames_eq_nil {a : Attribute} (h : keyNames a = []) : renames a = [] := by
  unfold renames
  split
  case isFalse => rfl
  case isTrue hserde =>
    refine List.filterMap_eq_nil_iff.mpr fun o ho => Option.eq_none_iff_forall_ne_some.mpr ?_
    intro s hs
    obtain ⟨ho, hn⟩ := List.mem_filter.mp ho
    unfold keyNames at h
    rw [if_pos hserde] at h
    unfold SerdeOptions.ofAttribute at ho
    split at ho
    case h_1 => cases ho
    case h_2 d args _ hargs =>
      rw [hargs] at h
      obtain ⟨j, x, hq⟩ := mem_pieces_of_mem_options _ ho hn hs
      have := List.filterMap_eq_nil_iff.mp h _ hq
      simp [keyName?] at this
    case h_3 => cases ho

theorem flatMap_filter_eq_iff {α β : Type} {f : α → List β} {p : α → Bool} (l : List α) :
    (l.filter p).flatMap f = l.flatMap f ↔ ∀ a ∈ l, f a ≠ [] → p a := by
  induction l with
  | nil => simp
  | cons a l ih =>
    rw [List.forall_mem_cons, ← ih, List.flatMap_cons, List.filter_cons]
    cases hp : p a with
    | true => simp
    | false =>
      have hle : ((l.filter p).flatMap f).length ≤ (l.flatMap f).length :=
        ((List.filter_sublist).flatMap f).length_le
      constructor
      · intro h
        have hf : f a = [] := by
          have := congrArg List.length h
          simp only [Bool.false_eq_true, if_false, List.length_append] at this
          exact List.eq_nil_of_length_eq_zero (by omega)
        exact ⟨fun hne => absurd hf hne, by simpa [hf] using h⟩
      · rintro ⟨hf, h⟩
        have hf : f a = [] := by simpa using hf
        simpa [hf] using h

theorem names_of_markerAttributes (w : Wrap) (hasDefault : Bool) :
    (w.markerAttributes hasDefault).flatMap keyNames = [] ∧
      (w.markerAttributes hasDefault).flatMap renames = [] := by
  cases w <;> cases hasDefault <;> exact ⟨rfl, rfl⟩

/-- Each attribute that gives a name to the key of the field holds nothing that speaks of the
type. -/
def NamesStandApart (f : RichField) : Prop :=
  ∀ a ∈ f.attrs, keyNames a ≠ [] → holdsNamesOnly a

instance (f : RichField) : Decidable (NamesStandApart f) :=
  inferInstanceAs (Decidable (∀ a ∈ f.attrs, keyNames a ≠ [] → holdsNamesOnly a))

def kept (f : RichField) : List Attribute := f.attrs.filter fun a => !isSerde a || holdsNamesOnly a

theorem attributes_of_conversion {f : FieldPlan} {c : Conversion}
    (hc : f.decision.conversion? = some c) : f.attributes true = kept f.field ++
      c.wrap.markerAttributes
        ((kept f.field).any fun a => isSerde a && (SerdeOptions.ofAttribute a).setsDefault) := by
  have hkept : f.keptAttributes true = kept f.field := by
    simp only [FieldPlan.keptAttributes, kept, hc, Option.isNone_some, Bool.false_or, Bool.true_and,
      ofAttribute_isTypeAgnostic]
  simp only [FieldPlan.attributes, hc, hkept, if_true]

section Converted

variable {f : FieldPlan} (hf : f.decision.conversion?.isSome)
include hf

theorem attributes_of_converted : ∃ marks : List Attribute, f.attributes true = kept f.field ++ marks ∧
    marks.flatMap keyNames = [] ∧ marks.flatMap renames = [] := by
  obtain ⟨c, hc⟩ := Option.isSome_iff_exists.mp hf
  exact ⟨_, attributes_of_conversion hc, names_of_markerAttributes c.wrap _⟩

theorem keyNames_of_converted : (f.attributes true).flatMap keyNames =
    (f.field.attrs.filter holdsNamesOnly).flatMap keyNames := by
  obtain ⟨marks, ha, hm, -⟩ := attributes_of_converted hf
  have hfilter : f.field.attrs.filter holdsNamesOnly =
      (kept f.field).filter holdsNamesOnly := by
    rw [kept, List.filter_filter]
    exact List.filter_congr fun a _ => by cases holdsNamesOnly a <;> simp
  rw [ha, List.flatMap_append, hm, List.append_nil, hfilter, eq_comm, flatMap_filter_eq_iff]
  intro a hmem hne
  have hserde : isSerde a := by
    by_contra h
    exact hne (if_neg h)
  simpa [hserde] using (List.mem_filter.mp hmem).2

theorem key_of_converted (h : NamesStandApart f.field) :
    (FieldRule.ofAttributes f.field.name (f.attributes true)).key =
      (FieldRule.ofAttributes f.field.name f.field.attrs).key := by
  obtain ⟨marks, ha, -, hm⟩ := attributes_of_converted hf
  rw [key_eq, key_eq, ha, List.flatMap_append, hm, List.append_nil, kept,
    (flatMap_filter_eq_iff f.field.attrs).mpr]
  intro a hmem hne
  rw [h a hmem fun hk => hne (renames_eq_nil hk), Bool.or_true]

end Converted

/-- Where a twin is read or written as text, a converted field has the names of those attributes
that hold nothing but names and bare defaults. So it keeps all its names just when each attribute
with a name is of that kind, and then both sides have the same key. -/
theorem keyNames_of_twin (p : Plan) (hserde : p.rich.derivesSerde) :
    List.Forall₂ (fun f t => t.name = f.field.name ∧ (f.decision.conversion?.isSome →
      t.attrs.flatMap keyNames = (f.field.attrs.filter holdsNamesOnly).flatMap keyNames ∧
      (t.attrs.flatMap keyNames = f.field.attrs.flatMap keyNames ↔ NamesStandApart f.field) ∧
      (NamesStandApart f.field → (FieldRule.ofAttributes t.name t.attrs).key =
        (FieldRule.ofAttributes f.field.name f.field.attrs).key)))
      p.fields (Twin.ofPlan p).fields := by
  simp only [Twin.ofPlan, hserde]
  rw [List.forall₂_map_right_iff, List.forall₂_same]
  refine fun f _ => ⟨rfl, fun hf => ⟨keyNames_of_converted hf, ?_, key_of_converted hf⟩⟩
  rw [keyNames_of_converted hf, flatMap_filter_eq_iff]
  rfl

def planOf? (source : String) : Option Plan :=
  match Item.ofFile? source with
  | some [.struct s] => match RichStruct.ofStruct s with
    | .ok (some r) => (Plan.build r).toOption
    | _ => none
  | _ => none

def apartSource : String :=
  "#[derive(Serialize)] pub struct N \x7b
    #[serde(rename = \"F\")] #[serde(skip_serializing_if = \"f\")] #[und(\"def\")] pub n: Und<u8> \x7d"

theorem keyNames_of_apart : ∃ p ∈ planOf? apartSource, p.rich.derivesSerde ∧ p.fields ≠ [] ∧
    List.Forall₂ (fun f t => t.attrs.flatMap keyNames = [("rename", "F")] ∧
      (FieldRule.ofAttributes t.name t.attrs).key =
        (FieldRule.ofAttributes f.field.name f.field.attrs).key) p.fields (Twin.ofPlan p).fields := by
  have h : ∃ p ∈ planOf? apartSource, p.rich.derivesSerde ∧ p.fields ≠ [] ∧
      ∀ f ∈ p.fields, f.decision.conversion?.isSome ∧ NamesStandApart f.field ∧
        f.field.attrs.flatMap keyNames = [("rename", "F")] := by
    decide +kernel
  obtain ⟨p, hp, hserde, hne, hf⟩ := h
  have hand := List.forall₂_iff_zip.mp (keyNames_of_twin p hserde)
  refine ⟨p, hp, hserde, hne, List.forall₂_iff_zip.mpr ⟨hand.1, fun {f t} hmem => ?_⟩⟩
  obtain ⟨hconv, hapart, hnames⟩ := hf f (List.of_mem_zip hmem).1
  obtain ⟨-, hkept, hkey⟩ := (hand.2 hmem).2 hconv
  exact ⟨(hkept.mpr hapart).trans hnames, hkey hapart⟩

def mixedSource : String :=
  "#[derive(Serialize)] pub struct N \x7b
    #[serde(rename = \"F\", skip_serializing_if = \"f\")] #[und(\"def\")] pub n: Und<u8> \x7d"

/-- A name that shares its attribute with an option of another kind is lost. -/
theorem mixed_options_lose_key : ∃ p ∈ planOf? mixedSource, p.rich.derivesSerde ∧
    (∀ f ∈ p.fields, f.decision.conversion?.isSome) ∧
    p.fields.map (fun f => (f.field.attrs.flatMap keyNames,
      (FieldRule.ofAttributes f.field.name f.field.attrs).key)) = [([("rename", "F")], "F")] ∧
    (Twin.ofPlan p).fields.map (fun t => (t.attrs.flatMap keyNames,
      (FieldRule.ofAttributes t.name t.attrs).key)) = [([], "n")] := by
  decide +kernel

end PlainTwin.KeyNames
