import Mathlib.Order.Basic

/-!
# Loops, one turn at a time

The loop of a program that may go wrong: `turn` is the test together with the body, `none` where the
program has no meaning, `some none` where the loop stops, and `some (some t)` where it goes on from `t`.
`Ends turn s n t` counts the turns, so that a bound on them is a statement about the loop itself and not
about the way it is embedded.

The two theorems are what a proof about such a loop needs of it. A measure that falls with every turn makes it
end (`exists_of_measure`), and a function that steps as the loop does computes what it ends with
(`eq_of_turn`), so that a loop and its recursive embedding are compared once and for all.
-/

/-- From `s` the loop stops at `t`, after so many turns. -/
inductive Ends {σ : Type*} (turn : σ → Option (Option σ)) : σ → ℕ → σ → Prop
  | stop {s : σ} (h : turn s = some none) : Ends turn s 0 s
  | go {s t u : σ} {n : ℕ} (h : turn s = some (some t)) (hrest : Ends turn t n u) :
    Ends turn s (n + 1) u

namespace Ends

variable {σ : Type*} {turn : σ → Option (Option σ)}

/-- **Measures.** A loop that has a meaning everywhere, and whose turns all make a measure smaller, ends
after no more turns than the measure. -/
theorem exists_of_measure (measure : σ → ℕ) (hdefined : ∀ s, turn s ≠ none)
    (hturn : ∀ s t, turn s = some (some t) → measure t < measure s) (s : σ) :
    ∃ n ≤ measure s, ∃ t, Ends turn s n t := by
  induction hm : measure s using Nat.strongRecOn generalizing s with
  | ind m ih =>
    subst hm
    rcases hs : turn s with - | - | t
    · exact absurd hs (hdefined s)
    · exact ⟨0, Nat.zero_le _, s, stop hs⟩
    · have hlt := hturn s t hs
      obtain ⟨n, hn, u, hu⟩ := ih (measure t) hlt t rfl
      exact ⟨n + 1, Nat.succ_le_of_lt (Nat.lt_of_le_of_lt hn hlt), u, go hs hu⟩

/-- **Equations.** A function that does what each turn does has the value the loop ends with. -/
theorem eq_of_turn {α : Type*} {f r : σ → α}
    (hstop : ∀ s, turn s = some none → f s = r s)
    (hgo : ∀ s t, turn s = some (some t) → f s = f t) {s t : σ} {n : ℕ} (h : Ends turn s n t) :
    f s = r t := by
  induction h with
  | stop h => exact hstop _ h
  | go h _ ih => exact (hgo _ _ h).trans ih

end Ends
