import PlainTwin.Elastic
import PlainTwin.Source.Token

namespace PlainTwin

/-- How the type of a field is built around an element type, which is a hole. -/
inductive Form where
  | elem
  | list (f : Form)
  | array (f : Form) (n : Nat)
  | option (f : Form)
  | tri (f : Form)
  | elastic
  | marker
  deriving DecidableEq

/-- What is kept of a nullish state whose kind is fixed by the tag. -/
inductive Marker where
  | nullish
  deriving DecidableEq

abbrev Slots (β : Type) (n : Nat) := { xs : List β // xs.length = n }

def Slots.map {β γ : Type} {n : Nat} (f : β → γ) (s : Slots β n) : Slots γ n :=
  ⟨s.1.map f, by rw [List.length_map, s.2]⟩

namespace Form

@[reducible]
def Val (α : Type) : Form → Type
  | elem => α
  | list f => List (f.Val α)
  | array f n => Slots (f.Val α) n
  | option f => Option (f.Val α)
  | tri f => Tri (f.Val α)
  | elastic => Elastic α
  | marker => Marker

def default? {α : Type} (d : α) : (f : Form) → Option (f.Val α)
  | elem => some d
  | list _ => some []
  | array _ _ => none
  | option _ => some none
  | tri _ => some .undefined
  | elastic => some .undefined
  | marker => some .nullish

def render (elem : String) : Form → String
  | .elem => elem
  | .list f => "Vec<" ++ f.render elem ++ ">"
  | .array f n => "[" ++ f.render elem ++ "; " ++ n.repr ++ "]"
  | .option f => "Option<" ++ f.render elem ++ ">"
  | .tri f => "Und<" ++ f.render elem ++ ">"
  | .elastic => "Elastic<" ++ elem ++ ">"
  | .marker => "Nullish"

open Source in
def tokens (elem : Tokens) : Form → Tokens
  | .elem => elem
  | .list f => path ["std", "vec", "Vec"] ++ angled (f.tokens elem)
  | .array f n => bracket (f.tokens elem ++ op ";" ++ [countLiteral n])
  | .option f => path ["core", "option", "Option"] ++ angled (f.tokens elem)
  | .tri f => path ["und", "Und"] ++ angled (f.tokens elem)
  | .elastic => path ["und", "Elastic"] ++ angled elem
  | .marker => path ["und", "conv", "Nullish"]

end Form

end PlainTwin
