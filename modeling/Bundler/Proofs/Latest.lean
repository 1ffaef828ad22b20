import Mathlib.Data.List.Basic

/-!
# The latest of a sequence

`Latest picks spares items item` says that `item` is picked and that all items after it spare it.
A history that grows by one item either gets that item as its latest, or keeps the one that it
had if it is spared.
-/

namespace Bundler

variable {α : Type u} {picks spares : α → Prop} {items : List α}

/-- An item that is picked, with none after it that does not spare it. -/
def Latest (picks spares : α → Prop) (items : List α) (item : α) : Prop :=
  ∃ before after, items = before ++ item :: after ∧ picks item ∧ ∀ later ∈ after, spares later

namespace Latest

theorem not_nil {item : α} : ¬ Latest picks spares [] item := by
  rintro ⟨before, after, whole, -⟩
  simp at whole

theorem concat_iff {item last : α} : Latest picks spares (items ++ [last]) item ↔
    (item = last ∧ picks item) ∨ (Latest picks spares items item ∧ spares last) := by
  constructor
  · rintro ⟨before, after, whole, picked, spared⟩
    rcases List.eq_nil_or_concat' after with rfl | ⟨earlier, final, rfl⟩
    · obtain ⟨-, same⟩ := List.append_inj' whole rfl
      exact .inl ⟨(List.cons.inj same).1.symm, picked⟩
    · have cut : items ++ [last] = (before ++ item :: earlier) ++ [final] := by simpa using whole
      obtain ⟨rfl, same⟩ := List.append_inj' cut rfl
      obtain rfl := (List.cons.inj same).1
      refine .inr ⟨⟨before, earlier, rfl, picked, fun later member => ?_⟩, spared _ (by simp)⟩
      exact spared later (List.mem_append_left _ member)
  · rintro (⟨rfl, picked⟩ | ⟨⟨before, after, rfl, picked, spared⟩, still⟩)
    · exact ⟨items, [], rfl, picked, by simp⟩
    · refine ⟨before, after ++ [last], by simp, picked, fun later member => ?_⟩
      rcases List.mem_append.1 member with member | member
      · exact spared later member
      · exact List.mem_singleton.1 member ▸ still

end Latest

end Bundler
