/-!
# Results in a row

A computation that goes on from a first result succeeds if both parts do.

Results:
1. `bind_eq_ok`, `map_eq_ok`: what a success says about the parts.
-/

namespace XmlTemplate.Result

variable {ε α β : Type}

theorem bind_eq_ok {first : Except ε α} {next : α → Except ε β} {y : β} :
    (first >>= next) = .ok y ↔ ∃ x, first = .ok x ∧ next x = .ok y := by
  cases first <;> simp [bind, Except.bind]

theorem map_eq_ok {first : Except ε α} {f : α → β} {y : β} :
    first.map f = .ok y ↔ ∃ x, first = .ok x ∧ f x = y := by
  cases first <;> simp [Except.map]

end XmlTemplate.Result
