import OrbitOpenEO.Lib.MemoRecursion

/-!
# Code that asks the same questions

Two pieces of code ask the same questions if they do so whatever the answers are, and then
both end with related results or both fail.  What one of them asks on the way to a result
is all that the other one can ask.
-/

namespace OrbitOpenEO
namespace Lib
namespace Asking

variable {ι V E α β γ δ : Type}

/-- The same questions in the same order, whatever the answers, and related results. -/
inductive SameQuestions (R : α → β → Prop) : Asking ι V E α → Asking ι V E β → Prop
  | done {a : α} {b : β} : R a b → SameQuestions R (.done a) (.done b)
  | fail {e e' : E} : SameQuestions R (.fail e) (.fail e')
  | ask {i : ι} {next : V → Asking ι V E α} {next' : V → Asking ι V E β} :
      (∀ v v', SameQuestions R (next v) (next' v')) →
      SameQuestions R (.ask i next) (.ask i next')

namespace SameQuestions

variable {R : α → β → Prop} {p : Asking ι V E α} {p' : Asking ι V E β}

theorem bind {S : γ → δ → Prop} {f : α → Asking ι V E γ} {f' : β → Asking ι V E δ}
    (h : SameQuestions R p p') (hf : ∀ a b, R a b → SameQuestions S (f a) (f' b)) :
    SameQuestions S (p >>= f) (p' >>= f') := by
  induction h with
  | done hab =>
      exact hf _ _ hab
  | fail =>
      exact .fail
  | ask _ ih =>
      exact .ask ih

variable {value value' : ι → Except E V → Prop} {a : α}

/-- What one can ask, the other has asked when it has its result. -/
theorem reaches (h : SameQuestions R p p') (hgives : Gives value p (.ok a)) {j : ι}
    (hj : Reaches value' p' j) : Reaches value p j := by
  induction h with
  | done _ =>
      cases hj
  | fail =>
      cases hj
  | ask _ ih =>
      rcases hgives with ⟨v, hv, hnext⟩ | ⟨e, -, he⟩
      · rcases hj with rfl | ⟨v', -, hj⟩
        · exact .inl rfl
        · exact .inr ⟨v, hv, ih v v' hnext hj⟩
      · cases he

/-- Where one has a result, the other one has a related result or the error of a node. -/
theorem gives (h : SameQuestions R p p') (hgives : Gives value p (.ok a))
    (hvalue : ∀ j, Reaches value p j → ∃ r, value' j r) :
    (∃ b, Gives value' p' (.ok b) ∧ R a b) ∨
      ∃ j e, Reaches value p j ∧ value' j (.error e) ∧ Gives value' p' (.error e) := by
  induction h with
  | done hab =>
      cases hgives
      exact .inl ⟨_, rfl, hab⟩
  | fail =>
      cases hgives
  | @ask i next next' _ ih =>
      rcases hgives with ⟨v, hv, hnext⟩ | ⟨e, -, he⟩
      · obtain ⟨r, hr⟩ := hvalue i (.inl rfl)
        cases r with
        | error e =>
            exact .inr ⟨i, e, .inl rfl, hr, .inr ⟨e, hr, rfl⟩⟩
        | ok v' =>
            rcases ih v v' hnext fun j hj => hvalue j (.inr ⟨v, hv, hj⟩) with
              ⟨b, hb, hab⟩ | ⟨j, e, hj, he, hgives'⟩
            · exact .inl ⟨b, .inl ⟨v', hr, hb⟩, hab⟩
            · exact .inr ⟨j, e, .inr ⟨v, hv, hj⟩, he, .inl ⟨v', hr, hgives'⟩⟩
      · cases he

end SameQuestions

section Values

variable {body : ι → Asking ι V E V}

/-- Code with a result has the values of all nodes it asks for, at the same depth. -/
theorem plain_ok_of_reaches {depth : Nat} {p : Asking ι V E α} {a : α}
    (h : answerBy (plain body depth) p = some (.ok a)) {j : ι}
    (hj : Reaches (Yields body) p j) : ∃ v, plain body depth j = some (.ok v) := by
  induction p with
  | done _ =>
      cases hj
  | fail e =>
      cases hj
  | ask i next ih =>
      unfold answerBy at h
      cases hi : plain body depth i with
      | none =>
          rw [hi] at h
          cases h
      | some r =>
          rw [hi] at h
          cases r with
          | error e =>
              cases h
          | ok v =>
              rcases hj with rfl | ⟨w, hw, hnext⟩
              · exact ⟨v, hi⟩
              · cases Yields.unique ⟨depth, hi⟩ hw
                exact ih v h hnext

/-- What holds of a node with a value as soon as it holds of the nodes it asks for, holds of
every node with a value. -/
theorem Yields.ok_induction {Q : ι → Prop}
    (h : ∀ i v, Gives (Yields body) (body i) (.ok v) → (∀ j, Asks body i j → Q j) → Q i)
    {i : ι} {v : V} (hi : Yields body i (.ok v)) : Q i := by
  obtain ⟨depth, hdepth⟩ := hi
  induction depth generalizing i v with
  | zero =>
      cases hdepth
  | succ depth ih =>
      refine h i v (gives_of_answerBy hdepth) fun j hj => ?_
      obtain ⟨w, hw⟩ := plain_ok_of_reaches hdepth hj
      exact ih hw

end Values

end Asking
end Lib
end OrbitOpenEO
