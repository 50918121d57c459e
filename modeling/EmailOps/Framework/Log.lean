import Mathlib.Data.List.Basic

/-!
# Logs whose events are justified

A protocol keeps a log of what it did to the outside. A safety property of such a log
often says that some events are *preceded* by others: what was deleted had been
archived. `Justified J log` says it of every event, where `J pre e` is what the log
before it has to hold for `e`.

* `Justified.append_singleton` is the step lemma, `Justified.append` the one for several
  events at a time.
-/

namespace Framework

variable {Event : Type*} {J : List Event → Event → Prop}

/-- Every event of the log is justified by the log before it. -/
def Justified (J : List Event → Event → Prop) (log : List Event) : Prop :=
  ∀ pre e post, log = pre ++ e :: post → J pre e

/-- Where an event of a log stands after one more: it is the new one, or stood there before. -/
theorem split_append_singleton {log pre post : List Event} {e e' : Event}
    (h : log ++ [e] = pre ++ e' :: post) :
    (pre = log ∧ e' = e ∧ post = []) ∨ ∃ post', post = post' ++ [e] ∧ log = pre ++ e' :: post' := by
  rcases List.eq_nil_or_concat post with rfl | ⟨post', last, rfl⟩
  · have hsplit : log ++ [e] = pre ++ [e'] := h
    obtain ⟨rfl, hlast⟩ := List.append_inj' hsplit rfl
    exact .inl ⟨rfl, (List.singleton_inj.mp hlast).symm, rfl⟩
  · have hsplit : log ++ [e] = (pre ++ e' :: post') ++ [last] := by
      rw [h]
      simp
    obtain ⟨hpre, hlast⟩ := List.append_inj' hsplit rfl
    exact .inr ⟨post', by rw [List.concat_eq_append, List.singleton_inj.mp hlast], hpre⟩

theorem Justified.nil : Justified J [] := by
  intro pre e post hlog
  exact absurd hlog (by simp)

/-- One more event, justified by the log so far. -/
theorem Justified.append_singleton {log : List Event} {e : Event} (h : Justified J log)
    (he : J log e) : Justified J (log ++ [e]) := by
  intro pre e' post hlog
  rcases split_append_singleton hlog with ⟨rfl, rfl, -⟩ | ⟨post', -, hpre⟩
  · -- The event asked about is the new one.
    exact he
  · exact h pre e' post' hpre

/-- Several more events, each justified by any log. -/
theorem Justified.append {log more : List Event} (h : Justified J log)
    (hmore : ∀ e ∈ more, ∀ pre, J pre e) : Justified J (log ++ more) := by
  induction more generalizing log with
  | nil => rwa [List.append_nil]
  | cons e more ih =>
    have hone : Justified J (log ++ [e]) := h.append_singleton (hmore e List.mem_cons_self log)
    have hrest := ih hone fun e' he' => hmore e' (List.mem_cons_of_mem e he')
    rwa [List.append_assoc, List.singleton_append] at hrest

end Framework
