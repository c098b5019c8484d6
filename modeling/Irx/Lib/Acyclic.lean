import Mathlib

/-!
# Finite relations without cycles

A relation with finitely many sources and no cycle can be followed only finitely often, so that a property
of an element may be shown from the property of all that lies behind it.
-/

namespace Irx.Lib
open Relation Set

variable {α : Type*} {R : α → α → Prop}

/-- Induction from what lies behind an element to the element. -/
theorem acyclic_induction (finite : {a | ∃ b, R a b}.Finite) (acyclic : ∀ a, ¬ TransGen R a a)
    {P : α → Prop} (step : ∀ a, (∀ b, TransGen R a b → P b) → P a) (a : α) : P a := by
  have : IsTrans α (fun b a => TransGen R a b) := ⟨fun _ _ _ ab bc => bc.trans ab⟩
  have : Std.Irrefl (fun b a => TransGen R a b) := ⟨acyclic⟩
  have : IsStrictOrder α (fun b a => TransGen R a b) := {}
  have sources : WellFoundedOn {a | ∃ b, R a b} (fun b a => TransGen R a b) := finite.wellFoundedOn
  have leaf : ∀ a, a ∉ {a | ∃ b, R a b} → P a := by
    intro a last
    apply step
    intro b path
    obtain ⟨c, first, _⟩ := TransGen.head'_iff.1 path
    exact absurd ⟨c, first⟩ last
  rcases Classical.em (a ∈ {a | ∃ b, R a b}) with source | last
  · apply sources.induction source
    intro c _ ih
    apply step
    intro b path
    rcases Classical.em (b ∈ {a | ∃ b, R a b}) with source | last
    · exact ih b source path
    · exact leaf b last
  · exact leaf a last

end Irx.Lib
