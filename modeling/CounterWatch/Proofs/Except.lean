/-!
# Proofs/Except — whether there is a result

General facts about computations that may fail.
-/

namespace Except

variable {ε α : Type} {result : Except ε α}

/-- Forgetting why a computation failed keeps its result, and only that. -/
theorem toOption_eq_some_iff {a : α} : result.toOption = some a ↔ result = .ok a := by
  cases result <;> simp [Except.toOption]

/-- A computation fails where it has no result. -/
theorem exists_eq_error_iff : (∃ e, result = .error e) ↔ ∀ a, result ≠ .ok a := by
  cases result <;> simp

end Except
