import Mathlib.Data.List.Basic

/-!
# Lists that grow at the end

What happened is a list that grows at its end. A statement about everything that came before and
after some event of it is proved along that growth: either the event is the newest one and nothing
came after it yet, or what is new came after it.

## Main results

* `append_singleton_eq_append_cons_iff` — the ways to split a list at a member after it has grown
-/

namespace Simulcast

variable {α : Type} {l before after : List α} {new a : α}

theorem append_singleton_eq_append_cons_iff :
    l ++ [new] = before ++ a :: after ↔
      (after = [] ∧ l = before ∧ new = a) ∨
        ∃ rest, after = rest ++ [new] ∧ l = before ++ a :: rest := by
  constructor
  · intro h
    rcases List.eq_nil_or_concat after with rfl | ⟨rest, last, rfl⟩
    · obtain ⟨hl, hnew⟩ := List.append_inj' h rfl
      exact Or.inl ⟨rfl, hl, (List.cons.inj hnew).1⟩
    · have hsplit : l ++ [new] = (before ++ a :: rest) ++ [last] := by simp [h]
      obtain ⟨hl, hnew⟩ := List.append_inj' hsplit rfl
      obtain rfl := (List.cons.inj hnew).1
      exact Or.inr ⟨rest, List.concat_eq_append, hl⟩
  · rintro (⟨rfl, rfl, rfl⟩ | ⟨rest, rfl, rfl⟩)
    · rfl
    · simp

end Simulcast
