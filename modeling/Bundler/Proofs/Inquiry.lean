import Bundler.Storage.View

/-!
# Questions of inquiries

The questions of a composed inquiry are those of its parts. An inquiry that two
views answer differently has a question on which they disagree and which it
asks in both of them: up to its first disagreement it cannot tell them apart.
-/

namespace Bundler.Inquiry

variable {α β : Type}

@[simp] theorem questions_done (view : FileView) (value : α) :
    questions view (done value) = [] := rfl

@[simp] theorem questions_pure (view : FileView) (value : α) :
    questions view (pure value : Inquiry α) = [] := rfl

@[simp] theorem questions_bind (view : FileView) (inquiry : Inquiry α) (next : α → Inquiry β) :
    questions view (inquiry >>= next) =
      questions view inquiry ++ questions view (next (answer view inquiry)) := by
  change questions view (bind inquiry next) = _
  induction inquiry with
  | done value => rfl
  | isFile path rest ih => simp only [bind, questions, answer, ih, List.cons_append]
  | read path rest ih => simp only [bind, questions, answer, ih, List.cons_append]

/-- Where two views disagree on some question of an inquiry, they disagree on
one that the inquiry asks in both. -/
theorem exists_shared_disagreement {left right : FileView} (inquiry : Inquiry α)
    (disagree : ¬ ∀ question ∈ questions left inquiry, question.Agree left right) :
    ∃ question, question ∈ questions left inquiry ∧ question ∈ questions right inquiry ∧
      ¬ question.Agree left right := by
  induction inquiry with
  | done value => simp [questions] at disagree
  | isFile path next ih =>
    by_cases same : left.isFile path = right.isFile path
    · have later : ¬ ∀ question ∈ questions left (next (left.isFile path)),
          question.Agree left right := by
        intro agree
        apply disagree
        simpa [questions, Question.Agree, same] using agree
      obtain ⟨question, asked, askedToo, apart⟩ := ih _ later
      refine ⟨question, List.mem_cons_of_mem _ asked, List.mem_cons_of_mem _ ?_, apart⟩
      rwa [← same]
    · exact ⟨.isFile path, List.mem_cons_self, List.mem_cons_self, same⟩
  | read path next ih =>
    by_cases same : left.read path = right.read path
    · have later : ¬ ∀ question ∈ questions left (next (left.read path)),
          question.Agree left right := by
        intro agree
        apply disagree
        simpa [questions, Question.Agree, same] using agree
      obtain ⟨question, asked, askedToo, apart⟩ := ih _ later
      refine ⟨question, List.mem_cons_of_mem _ asked, List.mem_cons_of_mem _ ?_, apart⟩
      rwa [← same]
    · exact ⟨.read path, List.mem_cons_self, List.mem_cons_self, same⟩

end Bundler.Inquiry
