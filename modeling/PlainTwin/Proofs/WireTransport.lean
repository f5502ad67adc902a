import PlainTwin.Proofs.RecordText
import PlainTwin.Twin.File
import PlainTwin.Twin.Schema

namespace PlainTwin.WireTransport

open Checking NumberText RecordCheck RecordText Source ValueText

def listed (name : String) (args : List Tokens) : Tokens :=
  (Attribute.listed name (commaSeparated args)).tokens

def assigned (name text : String) : Tokens := words [name] ++ op "=" ++ [textLiteral text]

def tag (text : String) : Tokens := listed "und" [[textLiteral text]]

def field (name : String) (type : Tokens) : Tokens :=
  words ["pub"] ++ initialised name type ++ op ","

def serdeTraits : List Tokens :=
  ["Serialize", "Deserialize"].map fun n => words ["serde"] ++ op "::" ++ words [n]

/-- The declaration of a struct that is written and read on both sides, as its derive is given it. The
states of each field are kept apart in another way. -/
def wireTokens : Tokens :=
  listed "und" [words ["derive"] ++ paren (commaSeparated (words ["Debug"] :: serdeTraits))] ++
  words ["pub", "struct", "Wire"] ++ brace (
    listed "serde" [assigned "rename" "F", words ["default"]] ++
    tag "required,len==1,values:nonnull" ++
    field "f" (words ["Elastic"] ++ angled (words ["f64"])) ++
    listed "serde" [words ["default"], assigned "skip_serializing_if" "Und::is_undefined"] ++
    tag "def,und" ++
    field "note" (words ["Und"] ++ angled (words ["String"])) ++
    listed "serde" [words ["default"], assigned "skip_serializing_if" "Und::is_undefined"] ++
    tag "nullish" ++
    field "gone" (words ["Und"] ++ angled (words ["u32"])) ++
    listed "serde" [words ["default"]] ++
    tag "null" ++
    field "cleared" (words ["Nullable"] ++ angled (words ["u8"])))

def declared? (ts : Tokens) : Option Item := Rule.whole? Rule.declaration ts

def richStruct? : Item → Option RichStruct
  | .struct s => (RichStruct.ofStruct s).toOption.join
  | .other => none

def wireRich : RichStruct := ((declared? wireTokens).bind richStruct?).get (by decide +kernel)

def wireTwin : Twin :=
  ((declared? wireTokens).bind fun item => (Twin.ofDeclaration item).toOption).get (by decide +kernel)

deriving instance DecidableEq for Schema, Fields

deriving instance DecidableEq for FieldCheck

def wireFields : Fields :=
  .cons ⟨"f", "F", true, false, false⟩ (.formed .elastic .float) <|
  .cons ⟨"note", "note", true, true, false⟩ (.formed (.tri .elem) .string) <|
  .cons ⟨"gone", "gone", true, true, false⟩ (.formed (.tri .elem) (.int .u32)) <|
  .cons ⟨"cleared", "cleared", true, false, false⟩ (.formed (.option .elem) (.int .u8)) .nil

def plainFields : Fields :=
  .cons ⟨"f", "F", true, false, false⟩ (.formed .elem .float) <|
  .cons ⟨"note", "note", false, false, false⟩ (.formed (.option .elem) .string) <|
  .cons ⟨"gone", "gone", true, true, true⟩ (.formed (.option .marker) (.int .u32)) <|
  .cons ⟨"cleared", "cleared", true, false, false⟩ (.formed .marker (.int .u8)) .nil

theorem traits_wire :
    wireTwin.traits.map (·.last) = ["Debug", "Serialize", "Deserialize"] := by
  decide +kernel

theorem ofRich?_wire :
    Fields.ofRich? (fun _ => none) wireRich.fields = some wireFields := by
  decide +kernel

theorem ofTwin?_wire : Fields.ofTwin? (fun _ => none) wireTwin.fields = some plainFields := by
  decide +kernel

def fRule : Constraint := ⟨some ⟨true, false, false⟩, some ⟨.eq, 1⟩, some ⟨true⟩⟩

def noteRule : Constraint := ⟨some ⟨true, false, true⟩, none, none⟩

def goneRule : Constraint := ⟨some ⟨false, true, true⟩, none, none⟩

def clearedRule : Constraint := ⟨some ⟨false, true, false⟩, none, none⟩

theorem checks_wire : wireTwin.checks = [⟨"f", .elastic, fRule⟩, ⟨"note", .tri, noteRule⟩,
    ⟨"gone", .tri, goneRule⟩, ⟨"cleared", .option, clearedRule⟩] := by
  decide +kernel

def settings (E : Conversion → Expr) : List (String × Expr) :=
  [("f", E ⟨.elastic, [.fix 1, .nonnull true, .single], .value⟩), ("note", E ⟨.tri, [], .option false⟩),
    ("gone", E ⟨.tri, [], .markerOption⟩), ("cleared", E ⟨.option, [], .marker false⟩)]

theorem assignments_wire :
    wireTwin.toPlain.map (fun a => (a.name, a.expr)) = settings Conversion.forward ∧
      wireTwin.toRich.map (fun a => (a.name, a.expr)) = settings Conversion.backward := by
  decide +kernel

/-- The element type of an assignment is only told to the reader of the code. -/
theorem mapM_run? (as : List Assignment) (r : Record) : as.mapM (·.run? r) =
    (as.map fun a => (a.name, a.expr)).mapM fun (n, e) => (Assignment.mk n [] e).run? r := by
  rw [List.mapM_map]
  rfl

def wireValue (f : Elastic Float) (note : Tri String) (gone : Tri IntType.u32.Val)
    (cleared : Option IntType.u8.Val) : wireFields.Val := (f, note, gone, cleared, ())

def plainValue (x : Float) (note : Option String) (gone : Option Marker) : plainFields.Val :=
  (x, note, gone, .nullish, ())

def ofMarker {α : Type} : Option Marker → Tri α
  | none => .undefined
  | some _ => .null

def validValue (x : Float) (note : Option String) (gone : Option Marker) : wireFields.Val :=
  wireValue (.single x) (.orUndefined note) (ofMarker gone) none

theorem intoPlain?_valid (x : Float) (note : Option String) (gone : Option Marker) :
    wireTwin.intoPlain? (wireFields.record (validValue x note gone)) =
      some (plainFields.record (plainValue x note gone)) := by
  rw [Twin.intoPlain?, mapM_run?, assignments_wire.1]
  cases note <;> cases gone <;> rfl

theorem intoRich?_plain (x : Float) (note : Option String) (gone : Option Marker) :
    wireTwin.intoRich? (plainFields.record (plainValue x note gone)) =
      some (wireFields.record (validValue x note gone)) := by
  rw [Twin.intoRich?, mapM_run?, assignments_wire.2]
  cases note <;> cases gone <;> rfl

theorem checkAll?_eq_ok_iff {r : Record} {cs : List FieldCheck} :
    Twin.checkAll? r cs = some (.ok ()) ↔ ∀ c ∈ cs, c.run? r = some (.ok ()) := by
  induction cs with
  | nil => simp [Twin.checkAll?]
  | cons c cs ih =>
      rw [List.forall_mem_cons, ← ih, Twin.checkAll?]
      cases c.run? r with
      | none => simp
      | some result => cases result <;> simp

theorem check_of_run? {k : Kind} {c : Constraint} {name : String} {r : Record} {s : Schema}
    {a : k.form.Val s.Val} (hr : r.lookup name = some ⟨.formed k.form s, a⟩)
    (h : (FieldCheck.mk name k c).run? r = some (.ok ())) : check c k a = .ok () := by
  rw [run?_of_lookup hr] at h
  cases hc : check c k a with
  | ok u => rfl
  | error v => simp [hc, Except.mapError] at h

theorem exists_single {α : Type} {e : Elastic α} (h : fRule.checkElastic e = .ok ()) :
    ∃ a, e = .single a := by
  obtain ⟨t⟩ := e
  cases t with
  | undefined => cases h
  | null => cases h
  | defined xs =>
      by_cases hxs : xs = [none]
      · subst hxs
        cases h
      · change fRule.checkElastic (.ofList xs) = .ok () at h
        rw [checkElastic_ofList fRule hxs] at h
        obtain ⟨hlength, hnull⟩ := (checkSequence_eq_ok_iff fRule xs).mp h
        have hone : xs.length = 1 := by simpa [LengthRule.allows] using hlength ⟨.eq, 1⟩ rfl
        obtain ⟨o, rfl⟩ := List.length_eq_one_iff.mp hone
        cases o with
        | none => exact absurd rfl hxs
        | some a => exact ⟨a, rfl⟩

theorem exists_valid {f : Elastic Float} {note : Tri String} {gone : Tri IntType.u32.Val}
    {cleared : Option IntType.u8.Val}
    (h : wireTwin.check? (wireFields.record (wireValue f note gone cleared)) = some (.ok ())) :
    ∃ x s m, f = .single x ∧ wireValue f note gone cleared = validValue x s m := by
  rw [Twin.check?, checks_wire, checkAll?_eq_ok_iff] at h
  simp only [List.forall_mem_cons] at h
  obtain ⟨hf, hn, hg, hc, -⟩ := h
  obtain ⟨x, rfl⟩ := exists_single (check_of_run? (k := .elastic) rfl hf)
  have hnote : ∃ s, note = .orUndefined s := by
    cases note with
    | undefined => exact ⟨none, rfl⟩
    | null => cases check_of_run? (k := .tri) rfl hn
    | defined s => exact ⟨some s, rfl⟩
  have hgone : ∃ m, gone = ofMarker m := by
    cases gone with
    | undefined => exact ⟨none, rfl⟩
    | null => exact ⟨some .nullish, rfl⟩
    | defined n => cases check_of_run? (k := .tri) rfl hg
  have hcleared : cleared = none := by
    cases cleared with
    | none => rfl
    | some n => cases check_of_run? (k := .option) rfl hc
  obtain ⟨s, rfl⟩ := hnote
  obtain ⟨m, rfl⟩ := hgone
  exact ⟨x, s, m, rfl, by rw [hcleared]; rfl⟩

theorem kept_plain {x : Float} (hx : Codec.float.encode x = .number (.float x)) (r : Reading)
    (note : Option String) (gone : Option Marker) : Kept r plainFields (plainValue x note gone) := by
  refine ⟨?_, ?_, ?_, ?_, trivial⟩
  · change Codec.float.decode r (.ofJson (Codec.float.encode x)) = .ok x
    rw [hx]
    rfl
  · cases note <;> rfl
  · cases gone <;> rfl
  · rfl

theorem legible_plain {x : Float} (hx : Codec.float.encode x = .number (.float x))
    (hback : ReadsBack (.float x)) (note : Option String) (gone : Option Marker) :
    Legible (.object (plainFields.members (plainValue x note gone))) := by
  have hnumber : Legible (Codec.float.encode x) := hx ▸ .number hback
  have hnote : Legible ((Codec.option .string).encode note) := by
    cases note with
    | none => exact .null
    | some s => exact .string s
  have hall : ∀ m ∈ [("F", Codec.float.encode x), ("note", (Codec.option .string).encode note),
      ("gone", Json.null), ("cleared", Json.null)], Legible m.2 := by
    simp only [List.forall_mem_cons]
    exact ⟨hnumber, hnote, .null, .null, fun m hm => absurd hm List.not_mem_nil⟩
  refine .object fun m hm => hall m ?_
  cases gone with
  | none => exact (((List.Sublist.refl _).cons ("gone", Json.null)).cons_cons _ |>.cons_cons _).subset hm
  | some u => exact hm

/-- A record of the struct that passes its check comes back from the plain side through a text: written
from the plain record, read by the attributes of the plain struct, and turned into the rich record
again. Of the number it is assumed that its own text is read as it was. -/
theorem transport_of_check_ok :
    wireTwin.traits.map (·.last) = ["Debug", "Serialize", "Deserialize"] ∧
    Fields.ofRich? (fun _ => none) wireRich.fields = some wireFields ∧
    Fields.ofTwin? (fun _ => none) wireTwin.fields = some plainFields ∧
    ∀ f note gone cleared,
      wireTwin.check? (wireFields.record (wireValue f note gone cleared)) = some (.ok ()) →
      (∀ x, some x ∈ f.toList →
        Codec.float.decode .start (.ofText (Codec.float.encode x).render) = .ok x) →
      ∃ q v, wireTwin.intoPlain? (wireFields.record (wireValue f note gone cleared)) = some q ∧
        (Schema.record wireTwin.plain plainFields).codec.decode .start
          (.ofText (Record.encode plainFields.rules q).render) = .ok v ∧
        wireTwin.intoRich? (plainFields.record v) =
          some (wireFields.record (wireValue f note gone cleared)) := by
  refine ⟨traits_wire, ofRich?_wire, ofTwin?_wire, fun f note gone cleared hok hnumbers => ?_⟩
  obtain ⟨x, s, m, rfl, hvalid⟩ := exists_valid hok
  obtain ⟨hx, hback⟩ := encode_float_of_decode (hnumbers x List.mem_cons_self)
  rw [hvalid]
  refine ⟨_, plainValue x s m, intoPlain?_valid x s m, ?_, intoRich?_plain x s m⟩
  exact decode_ofText_render wireTwin.plain (r := .start) (s := .text 126) rfl (by decide) (by decide)
    (kept_plain hx _ s m) (legible_plain hx hback s m)

theorem value?_sample :
    (Octet.Numeral.mk false ['2'] (some ['5']) none).value? = some (.float 2.5) := by
  have hdiv : Octet.divPow10 (UInt64.ofNat 25).toFloat 1 = 2.5 := by
    rw [Octet.divPow10, dif_pos (by decide)]
    decide +kernel
  have hscaled : (Octet.Scaled.mk 25 (-1)).toFloat? = some 2.5 := congrArg some hdiv
  change (Octet.Scaled.mk 25 (-1)).toFloat?.map _ = _
  rw [hscaled]
  rfl

theorem decode_sample :
    Codec.float.decode .start (.ofText (Codec.float.encode 2.5).render) = .ok 2.5 := by
  have hfinite : (2.5 : Float).isFinite = true := by decide +kernel
  have hencode : Codec.float.encode 2.5 = .number (.float 2.5) := by
    simp [Codec.float, Json.ofFloat, hfinite]
  have hrender : (Number.float 2.5).render = "2.5" := by decide +kernel
  have htext : Octet.ofString "2.5" = sign false ++ (pointed ['2'] ['5']).text :=
    ofString_literal (by decide)
  have hvalid : (pointed ['2'] ['5']).Valid :=
    valid_pointed ⟨by simp, by simp⟩ ⟨by simp, by simp⟩
  rw [hencode, Json.render, hrender, ofText_sign hvalid htext]
  change Codec.float.decode .start (.number (Octet.Numeral.mk false ['2'] (some ['5']) none).value?) = _
  rw [value?_sample]
  rfl

theorem transport_of_note : ∃ q v,
    wireTwin.intoPlain? (wireFields.record (wireValue (.single 2.5) (.defined "hi") .null none)) =
      some q ∧
    (Schema.record wireTwin.plain plainFields).codec.decode .start
      (.ofText (Record.encode plainFields.rules q).render) = .ok v ∧
    wireTwin.intoRich? (plainFields.record v) =
      some (wireFields.record (wireValue (.single 2.5) (.defined "hi") .null none)) := by
  refine transport_of_check_ok.2.2.2 _ _ _ _ ?_ fun x hx => ?_
  · rw [Twin.check?, checks_wire]
    rfl
  · obtain rfl : x = 2.5 := Option.some.inj (List.mem_singleton.mp hx)
    exact decode_sample

end PlainTwin.WireTransport
