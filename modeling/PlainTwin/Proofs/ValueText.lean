import PlainTwin.Proofs.NumberText

namespace PlainTwin.ValueText

open Octet NumberText StringText

inductive Legible : Json → Prop
  | null : Legible .null
  | bool (b : Bool) : Legible (.bool b)
  | number {n : Number} (h : ReadsBack n) : Legible (.number n)
  | string (s : String) : Legible (.string s)
  | array {js : List Json} (h : ∀ j ∈ js, Legible j) : Legible (.array js)
  | object {ms : List (String × Json)} (h : ∀ m ∈ ms, Legible m.2) : Legible (.object ms)

/-- The text of a value is read as the value, up to its end, if there is fuel for two levels at each
of its octets. -/
def Reads (j : Json) : Prop :=
  ∀ fuel r, 2 * (ofString j.render).length ≤ fuel → Stops r →
    Doc.value (fuel + 1) (ofString j.render ++ r) = (.ofJson j, some r)

theorem ofString_literal {cs : List Char} (h : cs.all (·.toNat < 128) = true) :
    ofString (String.ofList cs) = cs := by
  rw [ofString_ofList, flatMap_octetsOf fun c hc => of_decide_eq_true (List.all_eq_true.mp h c hc)]

theorem ofString_null : ofString "null" = ['n', 'u', 'l', 'l'] := ofString_literal (by decide)

theorem ofString_true : ofString "true" = ['t', 'r', 'u', 'e'] := ofString_literal (by decide)

theorem ofString_false : ofString "false" = ['f', 'a', 'l', 's', 'e'] :=
  ofString_literal (by decide)

theorem reads_null : Reads .null := by
  intro fuel r _ _
  simp only [Json.render, ofString_null]
  rfl

theorem reads_bool (b : Bool) : Reads (.bool b) := by
  intro fuel r _ _
  cases b with
  | true =>
      simp only [Json.render, if_true, ofString_true]
      rfl
  | false =>
      simp only [Json.render, Bool.false_eq_true, if_false, ofString_false]
      rfl

theorem reads_number {n : Number} (h : ReadsBack n) : Reads (.number n) := by
  intro fuel r _ hr
  rw [Json.render]
  exact value_of_readsBack h fuel hr

theorem reads_string (s : String) : Reads (.string s) := by
  intro fuel r _ _
  have hvalue : Doc.value (fuel + 1) ('"' :: (body s ++ ['"']) ++ r) =
      Doc.stringValue (body s ++ ['"'] ++ r) := rfl
  rw [Json.render, ofString_renderString, hvalue, List.append_assoc, List.singleton_append]
  simp only [Doc.stringValue, text_body]
  rfl

def joined (ts : List String) : Octets := ofString (",".intercalate ts)

theorem joined_singleton (t : String) : joined [t] = ofString t := by
  rw [joined, String.intercalate_singleton]

theorem joined_cons_cons (t u : String) (ts : List String) :
    joined (t :: u :: ts) = ofString t ++ ',' :: joined (u :: ts) := by
  have hcomma : ofString "," = [','] := ofString_literal (by decide)
  rw [joined, String.intercalate_cons_cons, ofString_append, ofString_append, hcomma,
    List.append_assoc, List.singleton_append]
  rfl

theorem stops_cons {c : Char} (h : c.isDigit = false ∧ c ≠ '.' ∧ c ≠ 'e' ∧ c ≠ 'E') (r : Octets) :
    Stops (c :: r) := by
  intro d hd
  obtain rfl : c = d := Option.some.inj hd
  exact h

theorem skipSpace_cons {c : Char} (h : isSpace c = false) (r : Octets) :
    skipSpace (c :: r) = c :: r := by
  simp [skipSpace, h]

theorem items_last {j : Json} {fuel : Nat} {r : Octets}
    (h : Doc.value fuel (ofString j.render ++ ']' :: r) = (.ofJson j, some (']' :: r))) :
    Doc.items (fuel + 1) (ofString j.render ++ ']' :: r) = ([.ofJson j], none, some r) := by
  have hend := skipSpace_cons (c := ']') (by decide)
  simp only [Doc.items, h, hend]

theorem items_more {j : Json} {fuel : Nat} {r : Octets}
    (h : Doc.value fuel (ofString j.render ++ ',' :: r) = (.ofJson j, some (',' :: r)))
    {ds : List Doc} {q : Option Octets} (hds : Doc.items fuel r = (ds, none, q)) :
    Doc.items (fuel + 1) (ofString j.render ++ ',' :: r) = (.ofJson j :: ds, none, q) := by
  have hcomma := skipSpace_cons (c := ',') (by decide)
  simp only [Doc.items, h, hcomma, hds]

theorem items_texts {js : List Json} (hne : js ≠ []) (h : ∀ j ∈ js, Reads j) (fuel : Nat)
    (r : Octets) (hfuel : 2 * (joined (Json.texts js)).length + 1 ≤ fuel) :
    Doc.items (fuel + 1) (joined (Json.texts js) ++ ']' :: r) = (Doc.ofItems js, none, some r) := by
  -- An item takes one level of the list and its own text for the rest of the fuel it needs.
  induction js generalizing fuel with
  | nil => exact absurd rfl hne
  | cons j js ih =>
      obtain ⟨fuel, rfl⟩ : ∃ k, fuel = k + 1 := ⟨fuel - 1, by omega⟩
      rw [List.forall_mem_cons] at h
      cases js with
      | nil =>
          rw [Json.texts, Json.texts, joined_singleton] at hfuel ⊢
          have hvalue := h.1 fuel (']' :: r) (by omega) (stops_cons (by decide) r)
          exact items_last hvalue
      | cons k js =>
          have htexts : joined (Json.texts (j :: k :: js)) =
              ofString j.render ++ ',' :: joined (Json.texts (k :: js)) := joined_cons_cons _ _ _
          rw [htexts, List.length_append, List.length_cons] at hfuel
          have hvalue := h.1 fuel (',' :: (joined (Json.texts (k :: js)) ++ ']' :: r)) (by omega)
            (stops_cons (by decide) _)
          have hrest := ih (List.cons_ne_nil k js) h.2 fuel (by omega)
          rw [htexts, List.append_assoc, List.cons_append]
          exact items_more hvalue hrest

def memberText (m : String × Json) : String := Json.renderString m.1 ++ ":" ++ m.2.render

theorem memberTexts_eq_map (ms : List (String × Json)) : Json.memberTexts ms = ms.map memberText := by
  induction ms with
  | nil => rfl
  | cons m ms ih => rw [Json.memberTexts, ih]; rfl

theorem ofString_memberText (m : String × Json) :
    ofString (memberText m) = '"' :: (body m.1 ++ '"' :: ':' :: ofString m.2.render) := by
  have hcolon : ofString ":" = [':'] := ofString_literal (by decide)
  simp only [memberText, ofString_append, ofString_renderString, hcolon, List.cons_append,
    List.append_assoc, List.nil_append]

theorem key_body (s : String) (r : Octets) : Doc.key (body s ++ '"' :: r) = (.ok s, .ok r) := by
  simp only [Doc.key, text_body]

theorem members_last {m : String × Json} {fuel : Nat} {r : Octets}
    (h : Doc.value fuel (ofString m.2.render ++ '\x7d' :: r) =
      (.ofJson m.2, some ('\x7d' :: r))) :
    Doc.members (fuel + 1) (body m.1 ++ '"' :: ':' :: (ofString m.2.render ++ '\x7d' :: r)) =
      ([(.ok m.1, .ofJson m.2)], none, some r) := by
  have hcolon := skipSpace_cons (c := ':') (by decide)
  have hend := skipSpace_cons (c := '\x7d') (by decide)
  simp only [Doc.members, key_body, hcolon, h, hend]

theorem members_more {m : String × Json} {fuel : Nat} {r : Octets}
    (h : Doc.value fuel (ofString m.2.render ++ ',' :: '"' :: r) =
      (.ofJson m.2, some (',' :: '"' :: r)))
    {ms : List (Except Fault String × Doc)} {q : Option Octets}
    (hms : Doc.members fuel r = (ms, none, q)) :
    Doc.members (fuel + 1) (body m.1 ++ '"' :: ':' :: (ofString m.2.render ++ ',' :: '"' :: r)) =
      ((.ok m.1, .ofJson m.2) :: ms, none, q) := by
  have hcolon := skipSpace_cons (c := ':') (by decide)
  have hcomma := skipSpace_cons (c := ',') (by decide)
  have hquote := skipSpace_cons (c := '"') (by decide)
  simp only [Doc.members, key_body, hcolon, h, hcomma, hquote, hms]

theorem members_memberTexts {ms : List (String × Json)} (hne : ms ≠ [])
    (h : ∀ m ∈ ms, Reads m.2) : ∃ cs, joined (Json.memberTexts ms) = '"' :: cs ∧
      ∀ fuel r, 2 * cs.length ≤ fuel →
        Doc.members (fuel + 1) (cs ++ '\x7d' :: r) = (Doc.ofMembers ms, none, some r) := by
  rw [memberTexts_eq_map]
  induction ms with
  | nil => exact absurd rfl hne
  | cons m ms ih =>
      rw [List.forall_mem_cons] at h
      cases ms with
      | nil =>
          refine ⟨_, (joined_singleton _).trans (ofString_memberText m), fun fuel r hfuel => ?_⟩
          simp only [List.length_append, List.length_cons] at hfuel
          obtain ⟨fuel, rfl⟩ : ∃ k, fuel = k + 1 := ⟨fuel - 1, by omega⟩
          have hvalue := h.1 fuel ('\x7d' :: r) (by omega) (stops_cons (by decide) r)
          rw [List.append_assoc, List.cons_append, List.cons_append]
          exact members_last hvalue
      | cons n ms =>
          obtain ⟨cs, htext, hread⟩ := ih (List.cons_ne_nil n ms) h.2
          refine ⟨body m.1 ++ '"' :: ':' :: (ofString m.2.render ++ ',' :: '"' :: cs), ?_,
            fun fuel r hfuel => ?_⟩
          · rw [List.map_cons, List.map_cons, joined_cons_cons, ofString_memberText]
            rw [List.map_cons] at htext
            rw [htext]
            simp only [List.append_assoc, List.cons_append]
          · simp only [List.length_append, List.length_cons] at hfuel
            obtain ⟨fuel, rfl⟩ : ∃ k, fuel = k + 1 := ⟨fuel - 1, by omega⟩
            have hvalue := h.1 fuel (',' :: '"' :: (cs ++ '\x7d' :: r)) (by omega)
              (stops_cons (by decide) _)
            have hrest := hread fuel r (by omega)
            simp only [List.append_assoc, List.cons_append]
            exact members_more hvalue hrest

theorem ofString_array (js : List Json) :
    ofString (Json.array js).render = '[' :: (joined (Json.texts js) ++ [']']) := by
  have hopen : ofString "[" = ['['] := ofString_literal (by decide)
  have hclose : ofString "]" = [']'] := ofString_literal (by decide)
  simp only [Json.render, ofString_append, hopen, hclose, List.cons_append, List.nil_append, joined]

theorem ofString_object (ms : List (String × Json)) :
    ofString (Json.object ms).render =
      '\x7b' :: (joined (Json.memberTexts ms) ++ ['\x7d']) := by
  have hopen : ofString "\x7b" = ['\x7b'] := ofString_literal (by decide)
  have hclose : ofString "\x7d" = ['\x7d'] := ofString_literal (by decide)
  simp only [Json.render, ofString_append, hopen, hclose, List.cons_append, List.nil_append, joined]

theorem exists_head (j : Json) :
    ∃ c cs, ofString j.render = c :: cs ∧ isSpace c = false ∧ c ≠ ']' := by
  cases j with
  | null => exact ⟨'n', _, ofString_null, by decide⟩
  | bool b =>
      cases b with
      | true => exact ⟨'t', _, ofString_true, by decide⟩
      | false => exact ⟨'f', _, ofString_false, by decide⟩
  | number n =>
      obtain ⟨c, cs, htext, hc⟩ := NumberText.exists_head n
      rw [Json.render]
      refine ⟨c, cs, htext, ?_⟩
      rcases hc with rfl | hc
      · decide
      · refine ⟨isSpace_of_isDigit hc, ?_⟩
        rintro rfl
        cases hc
  | string s => exact ⟨'"', _, ofString_renderString s, by decide⟩
  | array js => exact ⟨'[', _, ofString_array js, by decide⟩
  | object ms => exact ⟨'\x7b', _, ofString_object ms, by decide⟩

theorem exists_joined_head (j : Json) (js : List Json) :
    ∃ c cs, joined (Json.texts (j :: js)) = c :: cs ∧ isSpace c = false ∧ c ≠ ']' := by
  obtain ⟨c, cs, htext, hc⟩ := exists_head j
  cases js with
  | nil => exact ⟨c, cs, (joined_singleton _).trans htext, hc⟩
  | cons k js =>
      have hjoined : joined (Json.texts (j :: k :: js)) = _ := joined_cons_cons _ _ _
      rw [htext] at hjoined
      exact ⟨c, _, hjoined, hc⟩

theorem reads_array {js : List Json} (h : ∀ j ∈ js, Reads j) : Reads (.array js) := by
  intro fuel r hfuel _
  rw [ofString_array] at hfuel ⊢
  simp only [List.length_cons, List.length_append, List.length_nil] at hfuel
  obtain ⟨fuel, rfl⟩ : ∃ k, fuel = k + 1 := ⟨fuel - 1, by omega⟩
  cases js with
  | nil =>
      have hnone : joined (Json.texts []) = [] := ofString_literal (by decide)
      rw [hnone]
      rfl
  | cons j js =>
      have hitems := items_texts (List.cons_ne_nil j js) h fuel r (by omega)
      obtain ⟨c, cs, htext, hspace, hc⟩ := exists_joined_head j js
      rw [htext] at hitems ⊢
      have hopen := skipSpace_cons (c := '[') (by decide)
      have hskip := skipSpace_cons hspace
      simp only [List.cons_append, List.append_assoc, List.nil_append] at hitems ⊢
      simp only [Doc.value, hopen, hskip]
      split
      · next heq => cases heq
      · next heq => exact absurd (List.cons.inj heq).1 hc
      · rw [hitems]
        rfl

theorem reads_object {ms : List (String × Json)} (h : ∀ m ∈ ms, Reads m.2) : Reads (.object ms) := by
  intro fuel r hfuel _
  rw [ofString_object] at hfuel ⊢
  simp only [List.length_cons, List.length_append, List.length_nil] at hfuel
  obtain ⟨fuel, rfl⟩ : ∃ k, fuel = k + 1 := ⟨fuel - 1, by omega⟩
  by_cases hne : ms = []
  · subst hne
    have hnone : joined (Json.memberTexts []) = [] := ofString_literal (by decide)
    rw [hnone]
    rfl
  · obtain ⟨cs, htext, hread⟩ := members_memberTexts hne h
    rw [htext] at hfuel ⊢
    simp only [List.length_cons] at hfuel
    have hmembers := hread fuel r (by omega)
    have hopen := skipSpace_cons (c := '\x7b') (by decide)
    have hquote := skipSpace_cons (c := '"') (by decide)
    simp only [List.cons_append, List.append_assoc, List.nil_append, Doc.value, hopen, hquote,
      hmembers]
    rfl

theorem reads_of_legible {j : Json} (h : Legible j) : Reads j := by
  induction h with
  | null => exact reads_null
  | bool b => exact reads_bool b
  | number h => exact reads_number h
  | string s => exact reads_string s
  | array _ ih => exact reads_array ih
  | object _ ih => exact reads_object ih

/-- What was written is read as it was, if the numbers in it are. -/
theorem ofText_render {j : Json} (h : Legible j) : Doc.ofText j.render = .ofJson j := by
  have hread := reads_of_legible h (2 * (ofString j.render).length + 1) [] (by omega) stops_nil
  rw [List.append_nil] at hread
  exact congrArg Prod.fst hread

theorem encode_float_of_decode {x : Float}
    (h : Codec.float.decode .start (.ofText (Codec.float.encode x).render) = .ok x) :
    Codec.float.encode x = .number (.float x) ∧ ReadsBack (.float x) := by
  cases hx : x.isFinite with
  | false =>
      have hnull : Codec.float.encode x = .null := by simp [Codec.float, Json.ofFloat, hx]
      rw [hnull, ofText_render .null] at h
      cases h
  | true =>
      have hnumber : Codec.float.encode x = .number (.float x) := by
        simp [Codec.float, Json.ofFloat, hx]
      rw [hnumber, Json.render] at h
      exact ⟨hnumber, readsBack_float h⟩

end PlainTwin.ValueText
