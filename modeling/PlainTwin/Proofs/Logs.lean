import PlainTwin.Proofs.Workers

namespace PlainTwin

structure Event where
  op : FileOp
  answer : op.Answer

namespace FileProgram

variable {α β : Type}

/-- Asked in this order and answered like this, the operations lead to the result. Nothing is assumed
of the answers: they need not be those of any tree. -/
inductive Logs : FileProgram α → List Event → α → Prop
  | done (a : α) : Logs (.done a) [] a
  | ask {op : FileOp} {next : op.Answer → FileProgram α} (r : op.Answer) {log : List Event} {a : α}
      (h : Logs (next r) log a) : Logs (.ask op next) (⟨op, r⟩ :: log) a

theorem logs_pure_iff {a b : α} {log : List Event} :
    (pure a : FileProgram α).Logs log b ↔ log = [] ∧ b = a := by
  constructor
  · intro h
    cases h
    exact ⟨rfl, rfl⟩
  · rintro ⟨rfl, rfl⟩
    exact .done b

theorem logs_ask_iff {op : FileOp} {next : op.Answer → FileProgram α} {log : List Event} {a : α} :
    (ask op next).Logs log a ↔ ∃ r rest, log = ⟨op, r⟩ :: rest ∧ (next r).Logs rest a := by
  constructor
  · intro h
    cases h with
    | ask r h => exact ⟨r, _, rfl, h⟩
  · rintro ⟨r, rest, rfl, h⟩
    exact .ask r h

theorem logs_perform_iff {op : FileOp} {log : List Event} {r : op.Answer} :
    (perform op).Logs log r ↔ log = [⟨op, r⟩] := by
  rw [perform, logs_ask_iff]
  constructor
  · rintro ⟨r', rest, rfl, h⟩
    cases h
    rfl
  · rintro rfl
    exact ⟨r, [], rfl, .done r⟩

theorem logs_bind_iff {x : FileProgram α} {f : α → FileProgram β} {log : List Event} {b : β} :
    (x >>= f).Logs log b ↔
      ∃ front a rest, log = front ++ rest ∧ x.Logs front a ∧ (f a).Logs rest b := by
  induction x generalizing log with
  | done a =>
    constructor
    · intro h
      exact ⟨[], a, log, rfl, .done a, h⟩
    · rintro ⟨front, a', rest, rfl, hx, hf⟩
      cases hx
      exact hf
  | ask op next ih =>
    change (ask op fun r => next r >>= f).Logs log b ↔ _
    rw [logs_ask_iff]
    constructor
    · rintro ⟨r, log', rfl, h⟩
      obtain ⟨front, a, rest, rfl, hx, hf⟩ := (ih r).mp h
      exact ⟨⟨op, r⟩ :: front, a, rest, rfl, .ask r hx, hf⟩
    · rintro ⟨front, a, rest, rfl, hx, hf⟩
      obtain ⟨r, front', rfl, hnext⟩ := logs_ask_iff.mp hx
      exact ⟨r, front' ++ rest, rfl, (ih r).mpr ⟨front', a, rest, rfl, hnext, hf⟩⟩

end FileProgram

end PlainTwin
