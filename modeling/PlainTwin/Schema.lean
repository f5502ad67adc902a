import PlainTwin.Json.Record

namespace PlainTwin

mutual

/-- The type of a value on the wire. -/
inductive Schema where
  | int (t : IntType)
  | float
  | bool
  | string
  | any
  | map (s : Schema)
  | formed (f : Form) (elem : Schema)
  | record (name : String) (fields : Fields)

inductive Fields where
  | nil
  | cons (rule : FieldRule) (s : Schema) (rest : Fields)

end

mutual

def Schema.Val : Schema → Type
  | .int t => t.Val
  | .float => Float
  | .bool => Bool
  | .string => String
  | .any => Json
  | .map s => List (String × s.Val)
  | .formed f s => f.Val s.Val
  | .record _ fs => fs.Val

def Fields.Val : Fields → Type
  | .nil => Unit
  | .cons _ s fs => s.Val × fs.Val

end

def Fields.Slots : Fields → Type
  | .nil => Unit
  | .cons _ s fs => Option s.Val × fs.Slots

def Fields.noSlots : (fs : Fields) → fs.Slots
  | .nil => ()
  | .cons _ _ fs => (none, fs.noSlots)

def Fields.rules : Fields → List FieldRule
  | .nil => []
  | .cons rule _ fs => rule :: fs.rules

mutual

def Schema.default? : (s : Schema) → Option s.Val
  | .int t => some t.zero
  | .float => some (0.0 : Float)
  | .bool => some false
  | .string => some ""
  | .any => some Json.null
  | .map _ => some []
  | .formed f s => do f.default? (← s.default?)
  | .record _ fs => fs.default?

def Fields.default? : (fs : Fields) → Option fs.Val
  | .nil => some ()
  | .cons _ s fs => do return (← s.default?, ← fs.default?)

end

def Form.blank {α : Type} (a : α) : (f : Form) → f.Val α
  | .elem => a
  | .list _ => []
  | .array f n => ⟨List.replicate n (f.blank a), List.length_replicate⟩
  | .option _ => none
  | .tri _ => .undefined
  | .elastic => .undefined
  | .marker => .nullish

mutual

/-- The default of a type that has one. Of any other type it is a value that nothing asks for. -/
def Schema.blank : (s : Schema) → s.Val
  | .int t => t.zero
  | .float => (0.0 : Float)
  | .bool => false
  | .string => ""
  | .any => Json.null
  | .map _ => []
  | .formed f s => f.blank s.blank
  | .record _ fs => fs.blank

def Fields.blank : (fs : Fields) → fs.Val
  | .nil => ()
  | .cons _ s fs => (s.blank, fs.blank)

end

def Form.isAbsent {α : Type} : (f : Form) → f.Val α → Bool
  | .option _, o => o.isNone
  | .tri _, t => t.isUndefined
  | .elastic, e => e.isUndefined
  | _, _ => false

def Schema.isAbsent : (s : Schema) → s.Val → Bool
  | .formed f _, v => f.isAbsent v
  | _, _ => false

def FieldRule.adjust (rule : FieldRule) : (s : Schema) → Codec s.Val → Codec s.Val
  | .formed (.option .marker) _, c => if rule.presentIsSome then .presentMarker else c
  | _, c => c

theorem FieldRule.adjust_induction (rule : FieldRule) {P : (s : Schema) → Codec s.Val → Prop}
    (s : Schema) (c : Codec s.Val) (hkept : P s c)
    (hmarker : ∀ t, P (.formed (.option .marker) t) Codec.presentMarker) : P s (rule.adjust s c) := by
  unfold FieldRule.adjust
  split
  · cases rule.presentIsSome with
    | false => exact hkept
    | true => exact hmarker _
  · exact hkept

mutual

def Schema.codec : (s : Schema) → Codec s.Val
  | .int t => .int t
  | .float => .float
  | .bool => .bool
  | .string => .string
  | .any => .any
  | .map s => .map s.codec
  | .formed f s => f.codec s.codec
  | .record name fs =>
    .record name fs.rules.length fs.members fs.noSlots fs.put? fs.finish (fs.ofItems 0)

def Fields.members : (fs : Fields) → fs.Val → List (String × Json)
  | .nil, _ => []
  | .cons rule s fs, (v, vs) =>
    if rule.skipsAbsent && s.isAbsent v then fs.members vs
    else (rule.key, (rule.adjust s s.codec).encode v) :: fs.members vs

def Fields.put? : (fs : Fields) → Reading → String → Doc → fs.Slots →
    Option (Except Failure fs.Slots)
  | .nil, _, _, _, _ => none
  | .cons rule s fs, r, k, d, (slot, slots) =>
    if rule.key = k then some ((·, slots) <$> Codec.fill rule (rule.adjust s s.codec) r d slot)
    else (fs.put? r k d slots).map fun x => (slot, ·) <$> x

def Fields.finish : (fs : Fields) → fs.Slots → Except Failure fs.Val
  | .nil, _ => .ok ()
  | .cons rule s fs, (slot, slots) => do
    match slot <|> Codec.missing? rule (rule.adjust s s.codec) s.default? with
    | some v => return (v, ← fs.finish slots)
    | none => .error (.data (.missingField rule.key))

/-- Fields by their places in an array, of which those at the end can be missing. -/
def Fields.ofItems : (fs : Fields) → Nat → String → Reading → Option Fault → List Doc →
    Except Failure fs.Val
  | .nil, _, _, _, _, _ => .ok ()
  | .cons rule s fs, i, expected, r, tail, [] => do
    Doc.ending tail
    match if rule.hasDefault then s.default? else none with
    | some v => return (v, ← fs.ofItems (i + 1) expected r tail [])
    | none => .error (.data (.invalidLength i expected))
  | .cons rule s fs, i, expected, r, tail, d :: ds => do
    let v ← ((rule.adjust s s.codec).decode r d).mapError (.under (.index i))
    return (v, ← fs.ofItems (i + 1) expected r tail ds)

end

structure Cell where
  schema : Schema
  val : schema.Val

abbrev Record := List (String × Cell)

def Fields.record : (fs : Fields) → fs.Val → Record
  | .nil, _ => []
  | .cons rule s fs, (v, vs) => (rule.name, ⟨s, v⟩) :: fs.record vs

def Record.encode (rules : List FieldRule) (r : Record) : Json :=
  .object (rules.filterMap fun rule => do
    let cell ← r.lookup rule.name
    if rule.skipsAbsent && cell.schema.isAbsent cell.val then none
    else some (rule.key, cell.schema.codec.encode cell.val))

end PlainTwin
