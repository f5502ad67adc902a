import PlainTwin.Json.Codec
import PlainTwin.Proofs.StringText

namespace PlainTwin.NumberText

open Decimal Octet StringText

structure IsDigits (ds : List Char) : Prop where
  ne_nil : ds ≠ []
  isDigit : ∀ c ∈ ds, c.isDigit = true

/-- How a number is written behind its sign. The exponent has a sign of its own. -/
structure Spelling where
  whole : List Char
  fraction : Option (List Char)
  exponent : Option (Bool × List Char)

namespace Spelling

structure Valid (s : Spelling) : Prop where
  whole : IsDigits s.whole
  fraction : ∀ ds ∈ s.fraction, IsDigits ds
  exponent : ∀ e ∈ s.exponent, IsDigits e.2

def fractionText (s : Spelling) : Octets := s.fraction.elim [] ('.' :: ·)

def exponentText (s : Spelling) : Octets :=
  s.exponent.elim [] fun (negative, ds) => 'e' :: (if negative then '-' else '+') :: ds

def text (s : Spelling) : Octets := s.whole ++ (s.fractionText ++ s.exponentText)

def power (s : Spelling) : Option Int :=
  s.exponent.map fun (negative, ds) =>
    if negative then -(Nat.ofDigitChars 10 ds 0 : Int) else Nat.ofDigitChars 10 ds 0

def numeral (s : Spelling) (negative : Bool) : Except Fault Numeral :=
  if s.whole.head? = some '0' ∧ s.whole ≠ ['0'] then .error .syntactic
  else .ok ⟨negative, s.whole, s.fraction, s.power⟩

end Spelling

def NoDigit (r : Octets) : Prop := ∀ c ∈ r.head?, c.isDigit = false

/-- What can follow a number without being taken for a part of it. -/
def Stops (r : Octets) : Prop :=
  ∀ c ∈ r.head?, c.isDigit = false ∧ c ≠ '.' ∧ c ≠ 'e' ∧ c ≠ 'E'

theorem stops_nil : Stops [] := fun c hc => by cases hc

theorem Stops.noDigit {r : Octets} (h : Stops r) : NoDigit r := fun c hc => (h c hc).1

theorem noDigit_cons {c : Char} (h : c.isDigit = false) (r : Octets) : NoDigit (c :: r) := by
  intro d hd
  obtain rfl : c = d := Option.some.inj hd
  exact h

theorem digits_append {ds r : Octets} (hds : ∀ c ∈ ds, c.isDigit = true) (hr : NoDigit r) :
    digits (ds ++ r) = (ds, r) := by
  have hnone : r.takeWhile Char.isDigit = [] ∧ r.dropWhile Char.isDigit = r := by
    cases r with
    | nil => exact ⟨rfl, rfl⟩
    | cons c r =>
        have hc := hr c rfl
        simp only [List.takeWhile_cons, List.dropWhile_cons, hc]
        exact ⟨rfl, rfl⟩
  rw [digits, List.takeWhile_append_of_pos hds, List.dropWhile_append_of_pos hds, hnone.1, hnone.2,
    List.append_nil]

theorem digits1_append {ds r : Octets} (hds : IsDigits ds) (hr : NoDigit r) :
    digits1 (ds ++ r) = .ok (ds, r) := by
  obtain ⟨hne, hall⟩ := hds
  rw [digits1, digits_append hall hr]
  cases ds with
  | nil => exact absurd rfl hne
  | cons c ds => rfl

theorem readWhole_append {ds r : Octets} (hds : IsDigits ds) (hr : NoDigit r) :
    readWhole (ds ++ r) =
      if ds.head? = some '0' ∧ ds ≠ ['0'] then .error .syntactic else .ok (ds, r) := by
  have hall := digits1_append hds hr
  obtain ⟨hne, hdigit⟩ := hds
  cases ds with
  | nil => exact absurd rfl hne
  | cons c ds =>
      by_cases hc : c = '0'
      · subst hc
        cases ds with
        | nil =>
            cases r with
            | nil => rfl
            | cons d r =>
                have hd : d.isDigit = false := hr d rfl
                simp [readWhole, hd]
        | cons d ds =>
            have hd : d.isDigit = true := hdigit d (by simp)
            simp [readWhole, hd]
      · have hcons : readWhole (c :: (ds ++ r)) = digits1 (c :: (ds ++ r)) := by
          rw [readWhole.eq_def]
          split
          · next heq => exact absurd (List.cons.inj heq).1 hc
          · rfl
        simpa [hc] using hcons.trans hall

theorem readFraction_append {s : Spelling} (hs : ∀ ds ∈ s.fraction, IsDigits ds) {r : Octets}
    (hr : NoDigit r) (hpoint : ∀ c ∈ r.head?, c ≠ '.') :
    readFraction (s.fractionText ++ r) = .ok (s.fraction, r) := by
  obtain ⟨whole, fraction, exponent⟩ := s
  cases fraction with
  | none =>
      cases r with
      | nil => rfl
      | cons c r =>
          have hc : c ≠ '.' := hpoint c rfl
          simp [Spelling.fractionText, readFraction, hc]
  | some ds =>
      have hds := digits1_append (hs ds rfl) hr
      simp only [Spelling.fractionText, Option.elim, List.cons_append, readFraction, hds]
      rfl

theorem readExponent_append {s : Spelling} (hs : ∀ e ∈ s.exponent, IsDigits e.2) {r : Octets}
    (hr : Stops r) : readExponent (s.exponentText ++ r) = .ok (s.power, r) := by
  obtain ⟨whole, fraction, exponent⟩ := s
  cases exponent with
  | none =>
      cases r with
      | nil => rfl
      | cons c r =>
          obtain ⟨-, -, he, hE⟩ := hr c rfl
          simp [Spelling.exponentText, Spelling.power, readExponent, he, hE]
  | some e =>
      obtain ⟨negative, ds⟩ := e
      have hds := digits1_append (hs _ rfl) hr.noDigit
      cases negative with
      | true | false =>
          simp only [Spelling.exponentText, Spelling.power, Option.elim, List.cons_append,
            readExponent]
          simp [hds]

theorem head_exponent (s : Spelling) {r : Octets} (hr : Stops r) :
    ∀ c ∈ (s.exponentText ++ r).head?, c.isDigit = false ∧ c ≠ '.' := by
  obtain ⟨whole, fraction, exponent⟩ := s
  cases exponent with
  | none => exact fun c hc => ⟨(hr c hc).1, (hr c hc).2.1⟩
  | some e =>
      intro c hc
      obtain rfl : 'e' = c := Option.some.inj hc
      decide

theorem noDigit_fraction (s : Spelling) {r : Octets} (hr : NoDigit r) :
    NoDigit (s.fractionText ++ r) := by
  obtain ⟨whole, fraction, exponent⟩ := s
  cases fraction with
  | none => exact hr
  | some ds => exact noDigit_cons rfl (ds ++ r)

theorem readNumeral_text {s : Spelling} (hs : s.Valid) (negative : Bool) {r : Octets}
    (hr : Stops r) : readNumeral negative (s.text ++ r) = (·, r) <$> s.numeral negative := by
  have hexponent := head_exponent s hr
  have hnone : NoDigit (s.exponentText ++ r) := fun c hc => (hexponent c hc).1
  have hwhole := readWhole_append hs.whole (noDigit_fraction s hnone)
  have hfraction := readFraction_append hs.fraction hnone fun c hc => (hexponent c hc).2
  have hpower := readExponent_append hs.exponent hr
  rw [Spelling.text, List.append_assoc, List.append_assoc, readNumeral, hwhole]
  unfold Spelling.numeral
  split
  · rfl
  · change (readFraction _ >>= _) = _
    rw [hfraction]
    change (readExponent _ >>= _) = _
    rw [hpower]
    rfl

theorem isDigits_toDigits (n : Nat) : IsDigits (Nat.toDigits 10 n) where
  ne_nil := Nat.toDigits_ne_nil
  isDigit _ hc := Nat.isDigit_of_mem_toDigits (by decide) (by decide) hc

theorem isDigit_of_mem_zeros {n : Nat} {c : Char} (h : c ∈ zeros n) : c.isDigit = true := by
  rw [List.eq_of_mem_replicate h]
  rfl

def pointed (whole fraction : List Char) : Spelling := ⟨whole, some fraction, none⟩

theorem valid_pointed {ws fs : List Char} (hws : IsDigits ws) (hfs : IsDigits fs) :
    (pointed ws fs).Valid where
  whole := hws
  fraction := by
    rintro _ ⟨⟩
    exact hfs
  exponent := by rintro _ ⟨⟩

theorem text_pointed (ws fs : List Char) : (pointed ws fs).text = ws ++ '.' :: fs := by
  simp [pointed, Spelling.text, Spelling.fractionText, Spelling.exponentText]

theorem isDigits_zero : IsDigits ['0'] := ⟨by simp, by simp⟩

theorem exists_withPoint {ds : List Char} (h : IsDigits ds) (lead : Int) :
    ∃ ws fs, IsDigits ws ∧ IsDigits fs ∧ (pointed ws fs).text = withPoint ds lead := by
  unfold withPoint
  split
  · have hafter : IsDigits (zeros (-lead - 1).toNat ++ ds) := by
      refine ⟨fun hnil => h.ne_nil (List.append_eq_nil_iff.mp hnil).2, fun c hc => ?_⟩
      exact (List.mem_append.mp hc).elim isDigit_of_mem_zeros (h.isDigit c)
    exact ⟨_, _, isDigits_zero, hafter, text_pointed _ _⟩
  · have hbefore : IsDigits (ds.take (lead.toNat + 1) ++ zeros (lead.toNat + 1 - ds.length)) := by
      refine ⟨fun hnil => ?_, fun c hc => ?_⟩
      · rcases List.take_eq_nil_iff.mp (List.append_eq_nil_iff.mp hnil).1 with hzero | hnil
        · cases hzero
        · exact h.ne_nil hnil
      · exact (List.mem_append.mp hc).elim (fun hc => h.isDigit c (List.mem_of_mem_take hc))
          isDigit_of_mem_zeros
    have hafter : IsDigits (if (ds.drop (lead.toNat + 1)).isEmpty then ['0']
        else ds.drop (lead.toNat + 1)) := by
      split
      · exact isDigits_zero
      · next hne =>
          exact ⟨fun hnil => hne (by rw [hnil]; rfl), fun c hc => h.isDigit c (List.mem_of_mem_drop hc)⟩
    exact ⟨_, _, hbefore, hafter, text_pointed _ _⟩

theorem exists_withExponent {ds : List Char} (h : IsDigits ds) (lead : Int) :
    ∃ s : Spelling, s.Valid ∧ s.exponent.isSome ∧ s.text = withExponent ds lead := by
  obtain ⟨hne, hdigit⟩ := h
  cases ds with
  | nil => exact absurd rfl hne
  | cons c ds =>
      have hc : IsDigits [c] := ⟨by simp, by simpa using hdigit c⟩
      have hpower := isDigits_toDigits lead.natAbs
      refine ⟨⟨[c], if ds = [] then none else some ds,
        some (decide (lead < 0), Nat.toDigits 10 lead.natAbs)⟩, ⟨hc, ?_, ?_⟩, rfl, ?_⟩
      · intro es hes
        split at hes
        · cases hes
        · next hds =>
            cases hes
            exact ⟨hds, fun d hd => hdigit d (List.mem_cons_of_mem c hd)⟩
      · rintro _ ⟨⟩
        exact hpower
      · cases ds <;> simp [Spelling.text, Spelling.fractionText, Spelling.exponentText, withExponent]

theorem exists_render (d : Scientific) : ∃ s : Spelling, s.Valid ∧
    (s.fraction.isSome ∨ s.exponent.isSome) ∧ s.text = d.render := by
  have hds := isDigits_toDigits d.digits
  unfold Scientific.render
  simp only
  split
  · obtain ⟨ws, fs, hws, hfs, htext⟩ := exists_withPoint hds _
    exact ⟨_, valid_pointed hws hfs, .inl rfl, htext⟩
  · obtain ⟨s, hs, hsome, htext⟩ := exists_withExponent hds _
    exact ⟨s, hs, .inr hsome, htext⟩

def sign (negative : Bool) : Octets := if negative then ['-'] else []

theorem lt_of_isDigit {c : Char} (h : c.isDigit = true) : c.toNat < 128 := by
  obtain ⟨-, hle⟩ := Bool.and_eq_true_iff.mp h
  have hle : c.toNat ≤ 57 := of_decide_eq_true hle
  omega

theorem Spelling.Valid.lt_of_mem_text {s : Spelling} (hs : s.Valid) {c : Char} (hc : c ∈ s.text) :
    c.toNat < 128 := by
  obtain ⟨whole, fraction, exponent⟩ := s
  obtain ⟨hwhole, hfraction, hexponent⟩ := hs
  simp only [text, List.mem_append] at hc
  rcases hc with hc | hc | hc
  · exact lt_of_isDigit (hwhole.isDigit c hc)
  · cases fraction with
    | none => cases hc
    | some ds =>
        rcases List.mem_cons.mp hc with rfl | hc
        · decide
        · exact lt_of_isDigit ((hfraction ds rfl).isDigit c hc)
  · cases exponent with
    | none => cases hc
    | some e =>
        obtain ⟨negative, ds⟩ := e
        rcases List.mem_cons.mp hc with rfl | hc
        · decide
        rcases List.mem_cons.mp hc with rfl | hc
        · cases negative <;> decide
        · exact lt_of_isDigit ((hexponent _ rfl).isDigit c hc)

theorem ofString_sign {s : Spelling} (hs : s.Valid) (negative : Bool) :
    ofString (String.ofList (sign negative ++ s.text)) = sign negative ++ s.text := by
  rw [ofString_ofList]
  refine flatMap_octetsOf fun c hc => ?_
  rcases List.mem_append.mp hc with hc | hc
  · cases negative with
    | true => rw [List.mem_singleton.mp hc]; decide
    | false => cases hc
  · exact hs.lt_of_mem_text hc

theorem exists_float (x : Float) : ∃ negative, ∃ s : Spelling, s.Valid ∧
    (s.fraction.isSome ∨ s.exponent.isSome) ∧
      ofString (Number.float x).render = sign negative ++ s.text := by
  have hdigits : ∃ s : Spelling, s.Valid ∧ (s.fraction.isSome ∨ s.exponent.isSome) ∧
      s.text = if x.toBits &&& 0x7FFFFFFFFFFFFFFF = 0 then "0.0".toList
        else (Binary.ofBits (x.toBits &&& 0x7FFFFFFFFFFFFFFF)).shortest.normal.render := by
    split
    · exact ⟨_, valid_pointed isDigits_zero isDigits_zero, .inl rfl, rfl⟩
    · exact exists_render _
  obtain ⟨s, hs, hsome, htext⟩ := hdigits
  unfold Number.render renderFloat
  simp only [← htext]
  split
  · exact ⟨false, s, hs, hsome, ofString_sign hs false⟩
  · exact ⟨true, s, hs, hsome, ofString_sign hs true⟩

theorem exists_int (i : Int) : ∃ negative, ∃ s : Spelling, s.Valid ∧
    ofString (Number.int i).render = sign negative ++ s.text := by
  have hvalid (n : Nat) : Spelling.Valid ⟨Nat.toDigits 10 n, none, none⟩ :=
    ⟨isDigits_toDigits n, by rintro _ ⟨⟩, by rintro _ ⟨⟩⟩
  have htext (n : Nat) : (Spelling.mk (Nat.toDigits 10 n) none none).text = Nat.toDigits 10 n := by
    simp [Spelling.text, Spelling.fractionText, Spelling.exponentText]
  cases i with
  | ofNat n =>
      refine ⟨false, _, hvalid n, ?_⟩
      rw [← ofString_sign (hvalid n), htext]
      exact congrArg ofString Nat.repr_eq_ofList_toDigits
  | negSucc n =>
      refine ⟨true, _, hvalid (n + 1), ?_⟩
      rw [← ofString_sign (hvalid (n + 1)), htext]
      refine congrArg ofString (String.toList_inj.mp ?_)
      simp [Number.render, Int.repr, Nat.toList_repr, sign]

theorem exists_sign (n : Number) : ∃ negative, ∃ s : Spelling, s.Valid ∧
    ofString n.render = sign negative ++ s.text := by
  cases n with
  | int i => exact exists_int i
  | float x =>
      obtain ⟨negative, s, hs, -, htext⟩ := exists_float x
      exact ⟨negative, s, hs, htext⟩

theorem exists_head (n : Number) :
    ∃ c cs, ofString n.render = c :: cs ∧ (c = '-' ∨ c.isDigit = true) := by
  obtain ⟨negative, ⟨whole, fraction, exponent⟩, ⟨⟨hne, hdigit⟩, -, -⟩, htext⟩ := exists_sign n
  cases negative with
  | true => exact ⟨'-', _, htext, .inl rfl⟩
  | false =>
      cases whole with
      | nil => exact absurd rfl hne
      | cons c ds => exact ⟨c, _, htext, .inr (hdigit c List.mem_cons_self)⟩

def Spelling.doc (s : Spelling) (negative : Bool) (r : Octets) : Doc × Option Octets :=
  match s.numeral negative with
  | .ok n => (.number n.value?, some r)
  | .error f => (.broken f .syntactic, none)

theorem numeral_text {s : Spelling} (hs : s.Valid) (negative : Bool) {r : Octets} (hr : Stops r) :
    Doc.numeral negative (s.text ++ r) = s.doc negative r := by
  rw [Doc.numeral, readNumeral_text hs negative hr, Spelling.doc]
  cases s.numeral negative <;> rfl

theorem isSpace_of_isDigit {c : Char} (h : c.isDigit = true) : isSpace c = false := by
  refine decide_eq_false fun hc => ?_
  rcases hc with rfl | rfl | rfl | rfl <;> cases h

theorem value_digit (fuel : Nat) {c : Char} (h : c.isDigit = true) (r : Octets) :
    Doc.value (fuel + 1) (c :: r) = Doc.numeral false (c :: r) := by
  have hskip : skipSpace (c :: r) = c :: r := by simp [skipSpace, isSpace_of_isDigit h]
  have hothers : ∀ d ∈ ['n', 't', 'f', '"', '-', '[', '\x7b'], d.isDigit = false := by simp
  have hstart : ∀ d ∈ ['n', 't', 'f', '"', '-', '[', '\x7b'], c ≠ d := by
    rintro d hd rfl
    rw [hothers c hd] at h
    cases h
  simp only [List.forall_mem_cons] at hstart
  rw [Doc.value, hskip]
  split <;> simp_all

theorem value_sign {s : Spelling} (hs : s.Valid) (negative : Bool) (fuel : Nat) {r : Octets}
    (hr : Stops r) : Doc.value (fuel + 1) (sign negative ++ s.text ++ r) = s.doc negative r := by
  rw [← numeral_text hs negative hr, List.append_assoc]
  cases negative with
  | true => rfl
  | false =>
      obtain ⟨whole, fraction, exponent⟩ := s
      obtain ⟨⟨hne, hdigit⟩, -, -⟩ := hs
      cases whole with
      | nil => exact absurd rfl hne
      | cons c ds => exact value_digit fuel (hdigit c List.mem_cons_self) _

theorem ofText_sign {s : Spelling} (hs : s.Valid) {negative : Bool} {t : String}
    (ht : ofString t = sign negative ++ s.text) : Doc.ofText t = (s.doc negative []).1 := by
  rw [← value_sign hs negative _ stops_nil, ← ht, List.append_nil]
  rfl

def ReadsBack (n : Number) : Prop := Doc.ofText n.render = .number (some n)

theorem value_of_readsBack {n : Number} (h : ReadsBack n) (fuel : Nat) {r : Octets} (hr : Stops r) :
    Doc.value (fuel + 1) (ofString n.render ++ r) = (.number (some n), some r) := by
  obtain ⟨negative, s, hs, htext⟩ := exists_sign n
  have hown : (s.doc negative []).1 = .number (some n) := (ofText_sign hs htext).symm.trans h
  rw [htext, value_sign hs negative fuel hr]
  unfold Spelling.doc at hown ⊢
  cases hm : s.numeral negative with
  | error f =>
      rw [hm] at hown
      cases hown
  | ok m =>
      rw [hm] at hown
      exact congrArg (·, some r) hown

theorem value?_ne_int {m : Numeral} (h : m.fraction.isSome ∨ m.exponent.isSome) (i : Int) :
    m.value? ≠ some (.int i) := by
  have hint : (m.fraction.isNone && m.exponent.isNone) = false := by
    rcases h with h | h <;> simp [Option.isNone_eq_false_iff.mpr h]
  unfold Numeral.value?
  simp only [hint, Bool.false_and, Bool.false_eq_true, if_false]
  intro hi
  obtain ⟨x, -, hx⟩ := Option.map_eq_some_iff.mp hi
  cases hx

theorem ofText_float_ne_int (x : Float) (i : Int) :
    Doc.ofText (Number.float x).render ≠ .number (some (.int i)) := by
  obtain ⟨negative, s, hs, hsome, htext⟩ := exists_float x
  rw [ofText_sign hs htext, Spelling.doc]
  cases hm : s.numeral negative with
  | error f => exact Doc.noConfusion
  | ok m =>
      unfold Spelling.numeral at hm
      split at hm
      · cases hm
      · cases hm
        exact fun hi => value?_ne_int (by simpa [Spelling.power] using hsome) i (Doc.number.inj hi)

/-- What a reader of numbers takes for a finite number is that number. -/
theorem readsBack_float {x : Float}
    (h : Codec.float.decode .start (.ofText (Number.float x).render) = .ok x) :
    ReadsBack (.float x) := by
  have hne := ofText_float_ne_int x
  unfold ReadsBack
  generalize Doc.ofText (Number.float x).render = d at h hne
  unfold Codec.float at h
  simp only at h
  split at h
  · next i => exact absurd rfl (hne i)
  · next y => rw [Except.ok.inj h]
  · cases h

end PlainTwin.NumberText
