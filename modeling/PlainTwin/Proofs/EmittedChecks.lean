import PlainTwin.Proofs.ConstantReading
import PlainTwin.Proofs.Planning
import PlainTwin.Twin.Record

namespace PlainTwin.EmittedChecks

open ConstantReading FieldCells Planning Source

abbrev isSemicolon (t : Token) : Bool := t.isMark ';'

def body? (ts : Tokens) : Option Tokens :=
  match ts.getLast? with
  | some (.group .brace content) => some content
  | _ => none

def constant? : Tokens → Option (String × Constraint)
  | .ident "const" :: .ident name :: .mark ':' false :: ts => match splitPath ts with
    | (["und", "Constraint"], .mark '=' _ :: value) => (name, ·) <$> constraint? value
    | _ => none
  | _ => none

structure Call where
  constant : String
  method : String
  field : String
  label : String

def ownField? : Tokens → Option String
  | [.mark '&' _, .ident "self", .mark '.' _, .ident name] => some name
  | _ => none

def label? : Tokens → Option String
  | [.mark '|' _, .ident v, .mark '|' _, .ident w, .mark '.' _, .ident "at",
      .group .paren [.literal (.text label) _]] => if v = w then some label else none
  | _ => none

def call? : Tokens → Option Call
  | [.ident constant, .mark '.' _, .ident method, .group .paren arg, .mark '.' _, .ident "map_err",
      .group .paren closure, .mark '?' _] => do
    return ⟨constant, method, ← ownField? arg, ← label? closure⟩
  | _ => none

def kind? : String → Option Kind
  | "validate_opt" => some .option
  | "validate_und" => some .tri
  | "validate_elastic" => some .elastic
  | _ => none

def check? (content : Tokens) : Option FieldCheck :=
  match content.splitOnP isSemicolon with
  | [declared, called, []] => do
    let (constant, constraint) ← constant? declared
    let call ← call? called
    let kind ← kind? call.method
    if call.constant = constant ∧ call.label = call.field then some ⟨call.field, kind, constraint⟩
    else none
  | _ => none

def checks? : Tokens → Option (List FieldCheck)
  | .group .brace content :: ts => do return (← check? content) :: (← checks? ts)
  | ts => match splitPath ts with
    | (["core", "result", "Result", "Ok"], [.group .paren [.group .paren []]]) => some []
    | _ => none

/-- The checks that generated code makes, in the method that is the last thing in it. -/
def ofTokens? (ts : Tokens) : Option (List FieldCheck) := do
  match ← body? ts with
  | .ident "fn" :: .ident "validate_und" :: method => checks? (← body? method)
  | _ => none

/-- The check of a field that takes part. Its constraint is the one that the tag of the field was
read as, for which the conversion of the field was selected too. -/
inductive ChecksTag : FieldPlan → FieldCheck → Prop
  | candidate {f container tag c v} (h : Candidate f container tag)
      (hparse : Constraint.parse tag = .ok c) (hselect : c.select container.kind = .ok v) :
      ChecksTag ⟨f, .checked container c v⟩ ⟨f.name, container.kind, c⟩

theorem body?_append (ts content : Tokens) : body? (ts ++ brace content) = some content := by
  simp [body?, brace]

def declaration (c : Constraint) : Tokens :=
  words ["const", "C"] ++ op ":" ++ path ["und", "Constraint"] ++ op "=" ++ c.literal

def statement (c : FieldCheck) : Tokens :=
  words ["C"] ++ op "." ++ words [c.kind.checkMethod] ++ paren (op "&" ++ ownField c.name) ++
    op "." ++ words ["map_err"] ++ paren (op "|" ++ words ["v"] ++ op "|" ++
      words ["v"] ++ op "." ++ words ["at"] ++ paren [textLiteral c.name]) ++ op "?"

def block (c : FieldCheck) : Tokens :=
  declaration c.constraint ++ .mark ';' false :: (statement c ++ [.mark ';' false])

theorem tokens_eq (c : FieldCheck) : c.tokens = brace (block c) := by
  simp [FieldCheck.tokens, block, declaration, statement, op, marks]

theorem constant?_declaration (c : Constraint) : constant? (declaration c) = some ("C", c) := by
  have hpath : splitPath (path ["und", "Constraint"] ++ .mark '=' false :: c.literal) =
      (["und", "Constraint"], .mark '=' false :: c.literal) := splitPath_path _ rfl
  simp [constant?, declaration, words, op, marks, hpath, constraint?_literal]

theorem call?_statement (c : FieldCheck) :
    call? (statement c) = some ⟨"C", c.kind.checkMethod, c.name, c.name⟩ := rfl

theorem kind?_checkMethod (k : Kind) : kind? k.checkMethod = some k := by
  cases k <;> rfl

theorem lacks_declaration (c : Constraint) : Lacks ';' (declaration c) := by
  have hliteral : Lacks ';' c.literal :=
    lacks_append.mpr ⟨lacks_path (by decide) _, lacks_singleton.mpr rfl⟩
  simp only [declaration, lacks_append]
  refine ⟨⟨⟨⟨?_, ?_⟩, lacks_path (by decide) _⟩, ?_⟩, hliteral⟩ <;>
    simp [Lacks, words, op, marks, Token.isMark]

theorem lacks_statement (c : FieldCheck) : Lacks ';' (statement c) := by
  simp [Lacks, statement, words, op, marks, paren, Token.isMark]

theorem check?_block (c : FieldCheck) : check? (block c) = some c := by
  have hsplit : (block c).splitOnP isSemicolon = [declaration c.constraint, statement c, []] := by
    rw [block, List.splitOnP_append_cons_of_forall_mem (lacks_declaration _) _ rfl,
      List.splitOnP_append_cons_of_forall_mem (lacks_statement c) _ rfl, List.splitOnP_nil]
  simp only [check?, hsplit, constant?_declaration, call?_statement, kind?_checkMethod,
    Option.bind_eq_bind, Option.bind_some, and_self, if_true]

theorem checks?_flatMap {rest : Tokens} (h : checks? rest = some []) (cs : List FieldCheck) :
    checks? (cs.flatMap FieldCheck.tokens ++ rest) = some cs := by
  induction cs with
  | nil => exact h
  | cons c cs ih =>
      rw [List.flatMap_cons, List.append_assoc, tokens_eq, brace, List.singleton_append, checks?,
        check?_block, ih]
      rfl

theorem exists_tokens_eq (t : Twin) : ∃ front signature, t.tokens = front ++
    brace (.ident "fn" :: .ident "validate_und" :: (signature ++
      brace (t.checks.flatMap FieldCheck.tokens ++ path ["core", "result", "Result", "Ok"] ++
        paren (paren [])))) := by
  have ht : t.tokens = _ ++ t.checkImplementation := rfl
  rw [ht, Twin.checkImplementation, Twin.implementation, ← List.append_assoc]
  exact ⟨_, paren (op "&" ++ words ["self"]) ++ op "->" ++ Twin.resultType, rfl⟩

theorem ofTokens?_tokens (t : Twin) : ofTokens? t.tokens = some t.checks := by
  obtain ⟨front, signature, ht⟩ := exists_tokens_eq t
  simp only [ofTokens?, ht, body?_append, Option.bind_eq_bind, Option.bind_some, List.append_assoc]
  exact checks?_flatMap rfl t.checks

theorem checksTag_of_planned {fs : List FieldPlan} (h : ∀ f ∈ fs, Planned f.field f.decision) :
    List.Forall₂ ChecksTag (fs.filter fun f => f.field.candidate?.isSome)
      (fs.filterMap FieldPlan.check?) := by
  induction fs with
  | nil => exact .nil
  | cons f fs ih =>
      rw [List.forall_mem_cons] at h
      obtain ⟨hf, hfs⟩ := h
      obtain ⟨field, decision⟩ := f
      cases hf with
      | copied hcopied =>
          have hnone : field.candidate? = none := (candidate?_eq_none_iff field).mpr hcopied
          rw [List.filter_cons_of_neg (by simp [hnone]), List.filterMap_cons_none rfl]
          exact ih hfs
      | checked hignore htag hexported hcontainer hparse hselect =>
          have hcandidate := Candidate.mk hignore htag hexported hcontainer
          have hsome := candidate?_eq_some_iff.mpr hcandidate
          rw [List.filter_cons_of_pos (by simp [hsome])]
          exact .cons (.candidate hcandidate hparse hselect) (ih hfs)

/-- A constraint is read back from its literal, so that different constraints have different ones.
Read back from the tokens of a twin, its code checks the fields that take part, in their order, each
under the constraint that was read from its tag. -/
theorem checks_of_tokens :
    (∀ c : Constraint, constraint? c.literal = some c) ∧
    Function.Injective Constraint.literal ∧
    ∀ s p, Plan.build s = .ok p →
      ofTokens? (Twin.ofPlan p).tokens = some (Twin.ofPlan p).checks ∧
      (∀ r, (ofTokens? (Twin.ofPlan p).tokens).bind (Twin.checkAll? r) =
        (Twin.ofPlan p).check? r) ∧
      p.fields.map (·.field) = s.fields ∧
      List.Forall₂ ChecksTag (p.fields.filter fun f => f.field.candidate?.isSome)
        (Twin.ofPlan p).checks := by
  refine ⟨constraint?_literal, literal_injective, fun s p hp => ?_⟩
  obtain ⟨hfields, hplanned⟩ := planned_of_plan hp
  refine ⟨ofTokens?_tokens _, fun r => ?_, hfields, checksTag_of_planned hplanned⟩
  rw [ofTokens?_tokens]
  rfl

def sample : RichStruct where
  name := "Sample"
  vis := words ["pub"]
  generics := ⟨[], none⟩
  traits := []
  attrs := []
  fields := [
    ⟨"marks", words ["pub"], words ["Elastic"] ++ angled (words ["u8"]),
      some ⟨.elastic, words ["u8"]⟩, some "def,und,len>=2,values:nonnull", [], {}⟩,
    ⟨"id", words ["pub"], words ["String"], none, none, [], {}⟩,
    ⟨"note", words ["pub"], words ["Und"] ++ angled (words ["String"]),
      some ⟨.tri, words ["String"]⟩, some "def,null,und", [], {}⟩]
  directives := {}

theorem checks_of_tokens_sample : ∃ p, Plan.build sample = .ok p ∧
    ofTokens? (Twin.ofPlan p).tokens = some [
      ⟨"marks", .elastic, ⟨some ⟨true, false, true⟩, some ⟨.ge, 2⟩, some ⟨true⟩⟩⟩,
      ⟨"note", .tri, ⟨some ⟨true, true, true⟩, none, none⟩⟩] := by
  obtain ⟨-, -, hplans⟩ := checks_of_tokens
  obtain ⟨p, hp, hchecks⟩ : ∃ p, Plan.build sample = .ok p ∧ (Twin.ofPlan p).checks = [
      ⟨"marks", .elastic, ⟨some ⟨true, false, true⟩, some ⟨.ge, 2⟩, some ⟨true⟩⟩⟩,
      ⟨"note", .tri, ⟨some ⟨true, true, true⟩, none, none⟩⟩] := ⟨_, rfl, rfl⟩
  obtain ⟨hread, -⟩ := hplans sample p hp
  exact ⟨p, hp, hchecks ▸ hread⟩

end PlainTwin.EmittedChecks
