import PlainTwin.Command.Report
import PlainTwin.Conversion.Expr
import PlainTwin.Source.Type
import PlainTwin.Tag

namespace PlainTwin

structure Explain where
  kind : Kind := .elastic
  elem : String := "T"
  tag : String

namespace Explain

def conversionLines (elem : String) (tokens : Source.Tokens) (v : Conversion) : List String :=
  let expr (e : Expr) (source : String) := (e.tokens tokens (Source.words [source])).render
  ["plain  " ++ v.plainForm.render elem,
    "steps  " ++ " → ".intercalate (v.steps.map Step.render) ++ " | " ++ v.wrap.render,
    "forward  " ++ expr v.forward "rich",
    "backward  " ++ expr v.backward "plain"]

def run (x : Explain) : Report :=
  match Constraint.parse x.tag with
  | .error e => .fail (.tag e)
  | .ok c =>
    match Source.TypeText.ofText? x.elem with
    | none => .fail (.notType x.elem)
    | some t =>
      let head := ["tag  " ++ c.render, "kind  " ++ x.kind.name ++ "<" ++ x.elem ++ ">"]
      match c.select x.kind with
      | .error e => ⟨head, .error (.select e)⟩
      | .ok none => ⟨head ++ ["plain  unchanged"], .ok ()⟩
      | .ok (some v) => ⟨head ++ conversionLines x.elem t.tokens v, .ok ()⟩

end Explain

end PlainTwin
