/-
When a sequence of fallible steps returns.
-/
import Mathlib.Data.List.Forall2
import Mathlib.Tactic.TypeStar

namespace Except

variable {ε : Type*} {α β : Type _}

theorem bind_eq_ok_iff {x : Except ε α} {f : α → Except ε β} {b : β} :
    x >>= f = .ok b ↔ ∃ a, x = .ok a ∧ f a = .ok b := by
  rcases x with e | a
  · refine iff_of_false (fun h => by cases h) ?_
    rintro ⟨a, h, -⟩
    cases h
  · refine ⟨fun h => ⟨a, rfl, h⟩, ?_⟩
    rintro ⟨a', h, hf⟩
    cases h
    exact hf

/-- Of a loop that returns: each entry comes from an element, in their order. -/
theorem forall₂_of_mapM_eq_ok {f : α → Except ε β} {l : List α} :
    ∀ {l' : List β}, l.mapM f = .ok l' → List.Forall₂ (fun a b => f a = .ok b) l l' := by
  induction l with
  | nil =>
    intro l' h
    cases h
    exact .nil
  | cons a l ih =>
    intro l' h
    rw [List.mapM_cons, bind_eq_ok_iff] at h
    obtain ⟨b, hb, hrest⟩ := h
    obtain ⟨rest, hmap, hl'⟩ := bind_eq_ok_iff.1 hrest
    cases hl'
    exact .cons hb (ih hmap)

theorem toOption_eq_some_iff {x : Except ε α} {a : α} : x.toOption = some a ↔ x = .ok a := by
  rcases x with e | a'
  · exact iff_of_false (fun h => by cases h) fun h => by cases h
  · constructor
    · intro h
      cases h
      rfl
    · intro h
      cases h
      rfl

end Except
