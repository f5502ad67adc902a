import PlainTwin.Form

namespace PlainTwin

variable {α β : Type}

/-- The three states of an elastic value, the null form read as null. -/
def Elastic.toStates (e : Elastic α) : Tri (List (Option α)) :=
  if e.isUndefined then .undefined else if e.isNull then .null else .defined e.toList

def Elastic.ofStates : Tri (List (Option α)) → Elastic α
  | .undefined => .undefined
  | .null => .null
  | .defined xs => .ofList xs

def Tri.toMarker (_ : Tri α) : Marker := .nullish

def Tri.ofMarker (null : Bool) (_ : Marker) : Tri α := if null then .null else .undefined

/-- Null and undefined are told apart by the presence of the marker. -/
def Tri.toMarkerOption : Tri α → Option Marker
  | null => some .nullish
  | _ => none

def Tri.ofMarkerOption : Option Marker → Tri α
  | some _ => null
  | none => undefined

/-- The flag says which nullish state a missing value stands for. -/
def Tri.ofOption (null : Bool) : Option α → Tri α
  | some a => defined a
  | none => if null then .null else .undefined

/-- Exactly `n` slots: the surplus is cut off, and what is missing is null. -/
def fixTo (n : Nat) (xs : List (Option α)) : Slots (Option α) n :=
  ⟨xs.take n ++ List.replicate (n - xs.length) none, by simp; omega⟩

def padTo (n : Nat) (xs : List (Option α)) : List (Option α) :=
  xs ++ List.replicate (n - xs.length) none

def cutTo (n : Nat) (xs : List (Option α)) : List (Option α) := xs.take n

def fillNulls (d : α) (xs : List (Option α)) : List α := xs.map (·.getD d)

def fillNullSlots {n : Nat} (d : α) (xs : Slots (Option α) n) : Slots α n :=
  Slots.map (·.getD d) xs

def onlySlot (xs : Slots α 1) : α := xs.1.head (by intro h; have := xs.2; simp [h] at this)

def oneSlot (a : α) : Slots α 1 := ⟨[a], rfl⟩

/-- The functions that generated conversions call. A form says at which type a call is made, where
its argument does not. -/
inductive Primitive where
  | optionToTri
  | triToOption
  | optionInto
  | elasticToTri
  | triToElastic
  | unwrapDefined
  | fromDefined
  | toMarker
  | fromMarker (null : Bool) (f : Form)
  | toMarkerOption
  | fromMarkerOption (f : Form)
  | toOption
  | fromOption (null : Bool)
  | fixTo (n : Nat)
  | toList
  | padTo (n : Nat)
  | cutTo (n : Nat)
  | fillNulls
  | fillNullSlots
  | wrapSome
  | wrapSomeSlots
  | onlySlot
  | oneSlot
  deriving DecidableEq

abbrev Meaning (α : Type) (f : Form) := (g : Form) × (f.Val α → g.Val α)

/-- What a function does with an argument of a given form, if it takes one. The element's default
stands in for values that a conversion has to make up. -/
def Primitive.meaning? (d : α) : Primitive → (f : Form) → Option (Meaning α f)
  | optionToTri, .option .elem => some ⟨.tri .elem, Tri.orNull⟩
  | triToOption, .tri .elem => some ⟨.option .elem, Tri.toOption⟩
  | optionInto, .option .elem => some ⟨.option .elem, id⟩
  | elasticToTri, .elastic => some ⟨.tri (.list (.option .elem)), Elastic.toStates⟩
  | triToElastic, .tri (.list (.option .elem)) => some ⟨.elastic, Elastic.ofStates⟩
  | unwrapDefined, .tri f => (f.default? d).map fun z => ⟨f, fun t => t.getD z⟩
  | fromDefined, f => some ⟨.tri f, Tri.defined⟩
  | toMarker, .tri _ => some ⟨.marker, Tri.toMarker⟩
  | fromMarker null f, .marker => some ⟨.tri f, Tri.ofMarker null⟩
  | toMarkerOption, .tri _ => some ⟨.option .marker, Tri.toMarkerOption⟩
  | fromMarkerOption f, .option .marker => some ⟨.tri f, Tri.ofMarkerOption⟩
  | toOption, .tri f => some ⟨.option f, Tri.toOption⟩
  | fromOption null, .option f => some ⟨.tri f, Tri.ofOption null⟩
  | fixTo n, .list (.option f) => some ⟨.array (.option f) n, PlainTwin.fixTo n⟩
  | toList, .array f _ => some ⟨.list f, Subtype.val⟩
  | padTo n, .list (.option f) => some ⟨.list (.option f), PlainTwin.padTo n⟩
  | cutTo n, .list (.option f) => some ⟨.list (.option f), PlainTwin.cutTo n⟩
  | fillNulls, .list (.option f) =>
    (f.default? d).map fun z => ⟨.list f, PlainTwin.fillNulls z⟩
  | fillNullSlots, .array (.option f) n =>
    (f.default? d).map fun z => ⟨.array f n, PlainTwin.fillNullSlots z⟩
  | wrapSome, .list f => some ⟨.list (.option f), List.map some⟩
  | wrapSomeSlots, .array f n => some ⟨.array (.option f) n, Slots.map some⟩
  | onlySlot, .array f 1 => some ⟨f, PlainTwin.onlySlot⟩
  | oneSlot, f => some ⟨.array f 1, PlainTwin.oneSlot⟩
  | _, _ => none

end PlainTwin
