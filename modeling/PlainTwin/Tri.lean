namespace PlainTwin

variable {α β : Type}

inductive Tri (α : Type) where
  | undefined
  | null
  | defined (a : α)
  deriving DecidableEq

namespace Tri

instance : Inhabited (Tri α) := ⟨undefined⟩

def orNull : Option α → Tri α
  | none => null
  | some a => defined a

def orUndefined : Option α → Tri α
  | none => undefined
  | some a => defined a

/-- The outer option is missing for undefined, the inner one for null. -/
def ofNested : Option (Option α) → Tri α
  | none => undefined
  | some a => orNull a

def toNested : Tri α → Option (Option α)
  | undefined => none
  | null => some none
  | defined a => some (some a)

def isDefined : Tri α → Bool
  | defined _ => true
  | _ => false

def isNull : Tri α → Bool
  | null => true
  | _ => false

def isUndefined : Tri α → Bool
  | undefined => true
  | _ => false

def toOption : Tri α → Option α
  | defined a => some a
  | _ => none

def getD (t : Tri α) (fallback : α) : α := t.toOption.getD fallback

def map (f : α → β) : Tri α → Tri β
  | undefined => undefined
  | null => null
  | defined a => defined (f a)

def mapNested (f : Option (Option α) → Option (Option β)) (t : Tri α) : Tri β :=
  ofNested (f t.toNested)

theorem map_id (t : Tri α) : t.map id = t := by cases t <;> rfl

theorem map_map {γ : Type} (f : α → β) (g : β → γ) (t : Tri α) :
    (t.map f).map g = t.map (g ∘ f) := by
  cases t <;> rfl

end Tri

end PlainTwin
