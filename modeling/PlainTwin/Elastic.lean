import PlainTwin.Tri

namespace PlainTwin

variable {α β : Type}

/-- One value or many, each of them nullable. Null has the one-element form: a defined sequence
that holds a single null. -/
structure Elastic (α : Type) where
  inner : Tri (List (Option α))
  deriving DecidableEq

namespace Elastic

def undefined : Elastic α := ⟨.undefined⟩

def null : Elastic α := ⟨.defined [none]⟩

def ofList (xs : List (Option α)) : Elastic α := ⟨.defined xs⟩

def single (a : α) : Elastic α := ofList [some a]

def many (as : List α) : Elastic α := ofList (as.map some)

def ofTri : Tri (List (Option α)) → Elastic α
  | .null => null
  | t => ⟨t⟩

instance : Inhabited (Elastic α) := ⟨undefined⟩

def toTri (e : Elastic α) : Tri (List (Option α)) := e.inner

def toList (e : Elastic α) : List (Option α) := e.inner.getD []

def length (e : Elastic α) : Nat := e.toList.length

def isEmpty (e : Elastic α) : Bool := e.toList.isEmpty

def isUndefined (e : Elastic α) : Bool := e.inner.isUndefined

def isNull (e : Elastic α) : Bool :=
  match e.toList with
  | [none] => true
  | _ => false

def isDefined (e : Elastic α) : Bool := e.inner.isDefined && !e.isNull

/-- Holds also of undefined and of the empty sequence. -/
def isNullish (e : Elastic α) : Bool := e.toList.all Option.isNone

def isSingle (e : Elastic α) : Bool := e.length == 1

def isMultiple (e : Elastic α) : Bool := e.length > 1

def hasNull (e : Elastic α) : Bool := e.toList.any Option.isNone

def head? (e : Elastic α) : Option α := e.toList.head?.join

def value (fallback : α) (e : Elastic α) : α := e.head?.getD fallback

def values (fallback : α) (e : Elastic α) : List α := e.toList.map (·.getD fallback)

def map (f : Tri (List (Option α)) → Tri (List (Option β))) (e : Elastic α) : Elastic β :=
  ofTri (f e.inner)

theorem toList_ofList (xs : List (Option α)) : (ofList xs).toList = xs := rfl

theorem isNull_iff_toList (e : Elastic α) : e.isNull = true ↔ e.toList = [none] := by
  unfold isNull
  split <;> simp_all

theorem inner_ofTri_ne_null (t : Tri (List (Option α))) : (ofTri t).inner ≠ .null := by
  cases t <;> simp [ofTri, null]

end Elastic

end PlainTwin
