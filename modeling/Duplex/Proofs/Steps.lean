/-!
# Histories of steps

`Steps leads s h t`: from `s`, the steps of the history `h` lead to `t`, where `leads` says what one
step does. A history is cut in two at any of its steps (`Steps.split`).
-/

namespace Duplex

variable {σ ε : Type} {leads : σ → ε → σ → Prop}

inductive Steps (leads : σ → ε → σ → Prop) (s : σ) : List ε → σ → Prop
  | nil : Steps leads s [] s
  | snoc {h : List ε} {t u : σ} {e : ε} (steps : Steps leads s h t) (step : leads t e u) :
    Steps leads s (h ++ [e]) u

namespace Steps

variable {s t u : σ} {e : ε} {h₁ h₂ : List ε}

theorem append (hst : Steps leads s h₁ t) (htu : Steps leads t h₂ u) :
    Steps leads s (h₁ ++ h₂) u := by
  induction htu with
  | nil => rwa [List.append_nil]
  | snoc _ step ih => rw [← List.append_assoc]; exact ih.snoc step

theorem cons (step : leads s e t) (steps : Steps leads t h₂ u) : Steps leads s (e :: h₂) u :=
  append (snoc .nil step) steps

theorem split (hs : Steps leads s (h₁ ++ e :: h₂) u) :
    ∃ t t', Steps leads s h₁ t ∧ leads t e t' ∧ Steps leads t' h₂ u := by
  generalize hh : h₁ ++ e :: h₂ = h at hs
  induction hs generalizing h₂ with
  | nil => simp at hh
  | @snoc h t u e' steps step ih =>
    rcases List.eq_nil_or_concat h₂ with rfl | ⟨h₃, e₃, rfl⟩
    · obtain ⟨rfl, he⟩ := List.append_inj' hh rfl
      obtain rfl := List.singleton_inj.mp he
      exact ⟨t, u, steps, step, .nil⟩
    · rw [List.concat_eq_append, ← List.cons_append, ← List.append_assoc] at hh
      obtain ⟨hf, he⟩ := List.append_inj' hh rfl
      obtain rfl := List.singleton_inj.mp he
      obtain ⟨r, r', before, first, rest⟩ := ih hf
      rw [List.concat_eq_append]
      exact ⟨r, r', before, first, rest.snoc step⟩

end Steps

end Duplex
