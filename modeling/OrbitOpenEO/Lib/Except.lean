import Mathlib.Data.List.Basic
import Mathlib.Data.List.Forall2

/-!
# Computations that may fail

Reading a successful `Except` computation backwards: a sequence succeeds
exactly when all its parts do.
-/

namespace OrbitOpenEO
namespace Lib

variable {ε α β σ : Type}

theorem bind_eq_ok_iff {x : Except ε α} {f : α → Except ε β} {b : β} :
    (x >>= f) = .ok b ↔ ∃ a, x = .ok a ∧ f a = .ok b := by
  cases x with
  | error e =>
      simp [bind, Except.bind]
  | ok a =>
      simp [bind, Except.bind]

/-- A loop for the checks it makes succeeds if they all do. -/
theorem forM_eq_ok_iff {f : α → Except ε Unit} :
    ∀ {l : List α}, l.forM f = .ok () ↔ ∀ a ∈ l, f a = .ok ()
  | [] => by simp [List.forM, pure, Except.pure]
  | a :: l => by
      unfold List.forM
      rw [bind_eq_ok_iff, List.forall_mem_cons, ← forM_eq_ok_iff]
      exact ⟨fun ⟨_, ha, hl⟩ => ⟨ha, hl⟩, fun ⟨ha, hl⟩ => ⟨(), ha, hl⟩⟩

/-- A loop succeeds with the results of its steps. -/
theorem mapM_eq_ok_iff {f : α → Except ε β} {l : List α} {out : List β} :
    l.mapM f = .ok out ↔ List.Forall₂ (fun a b => f a = .ok b) l out := by
  induction l generalizing out with
  | nil =>
      cases out <;> simp [pure, Except.pure]
  | cons a l ih =>
      rw [List.mapM_cons, bind_eq_ok_iff]
      constructor
      · rintro ⟨b, ha, h⟩
        obtain ⟨rest, hl, h⟩ := bind_eq_ok_iff.mp h
        cases h
        exact .cons ha (ih.mp hl)
      · intro h
        cases h with
        | cons ha hl =>
            exact ⟨_, ha, bind_eq_ok_iff.mpr ⟨_, ih.mpr hl, rfl⟩⟩

/-- Each result of a loop comes from one of its arguments. -/
theorem mem_of_mapM_eq_ok {f : α → Except ε β} {b : β} :
    ∀ {l : List α} {out : List β}, l.mapM f = .ok out → b ∈ out → ∃ a ∈ l, f a = .ok b
  | [], out, h, hb => by
      cases h
      cases hb
  | a :: l, out, h, hb => by
      rw [List.mapM_cons, bind_eq_ok_iff] at h
      obtain ⟨b', ha, h⟩ := h
      obtain ⟨out', hl, h⟩ := bind_eq_ok_iff.mp h
      cases h
      rcases List.mem_cons.mp hb with rfl | hb
      · exact ⟨a, List.mem_cons_self, ha⟩
      · obtain ⟨a', hmem, ha'⟩ := mem_of_mapM_eq_ok hl hb
        exact ⟨a', List.mem_cons_of_mem _ hmem, ha'⟩

/-- Loops whose rounds are the same on the items of the list. -/
theorem foldlM_congr_of_mem {f g : σ → α → Except ε σ} {l : List α}
    (h : ∀ c, ∀ a ∈ l, f c a = g c a) (c : σ) : l.foldlM f c = l.foldlM g c := by
  induction l generalizing c with
  | nil =>
      rfl
  | cons a l ih =>
      rw [List.foldlM_cons, List.foldlM_cons, h c a List.mem_cons_self]
      exact congrArg (g c a >>= ·) (funext fun c' =>
        ih (fun c b hb => h c b (List.mem_cons_of_mem _ hb)) c')

/-- A loop that folds what each of its rounds finds. -/
theorem foldlM_eq_ok_iff {f : α → Except ε (List β)} {op : σ → β → σ} {l : List α} {c c' : σ} :
    l.foldlM (fun c a => do let bs ← f a; .ok (bs.foldl op c)) c = .ok c' ↔
      ∃ found, List.Forall₂ (fun a bs => f a = .ok bs) l found ∧ found.flatten.foldl op c = c' := by
  induction l generalizing c with
  | nil =>
      constructor
      · intro h
        cases h
        exact ⟨[], .nil, rfl⟩
      · rintro ⟨found, hfound, rfl⟩
        cases hfound
        rfl
  | cons a l ih =>
      rw [List.foldlM_cons, bind_eq_ok_iff]
      constructor
      · rintro ⟨mid, hmid, hrest⟩
        obtain ⟨bs, hbs, hok⟩ := bind_eq_ok_iff.mp hmid
        cases hok
        obtain ⟨found, hfound, hfold⟩ := ih.mp hrest
        exact ⟨bs :: found, .cons hbs hfound, by rw [List.flatten_cons, List.foldl_append, hfold]⟩
      · rintro ⟨found, hfound, hfold⟩
        cases hfound with
        | cons hbs hfound =>
            rw [List.flatten_cons, List.foldl_append] at hfold
            exact ⟨_, bind_eq_ok_iff.mpr ⟨_, hbs, rfl⟩, ih.mpr ⟨_, hfound, hfold⟩⟩

/-- A loop over a concatenation is two loops, one after the other. -/
theorem foldlM_append_eq_ok_iff
    (visit : σ → α → Except ε σ) (l₁ l₂ : List α) (acc acc' : σ) :
    (l₁ ++ l₂).foldlM visit acc = .ok acc' ↔
      ∃ mid, l₁.foldlM visit acc = .ok mid ∧ l₂.foldlM visit mid = .ok acc' := by
  rw [List.foldlM_append]
  exact bind_eq_ok_iff

/-- Two loop bodies, each with its own side condition. -/
theorem bind_eq_ok_iff_of_iff {x f : Except ε σ} {rest g : σ → Except ε σ}
    {P Q : Prop} {acc' : σ}
    (hx : ∀ mid, x = .ok mid ↔ P ∧ f = .ok mid)
    (hrest : ∀ mid, rest mid = .ok acc' ↔ Q ∧ g mid = .ok acc') :
    (x >>= rest) = .ok acc' ↔
      (P ∧ Q) ∧ ∃ mid, f = .ok mid ∧ g mid = .ok acc' := by
  rw [bind_eq_ok_iff]
  constructor
  · rintro ⟨mid, h₁, h₂⟩
    obtain ⟨hP, hf⟩ := (hx mid).mp h₁
    obtain ⟨hQ, hg⟩ := (hrest mid).mp h₂
    exact ⟨⟨hP, hQ⟩, mid, hf, hg⟩
  · rintro ⟨⟨hP, hQ⟩, mid, hf, hg⟩
    exact ⟨mid, (hx mid).mpr ⟨hP, hf⟩, (hrest mid).mpr ⟨hQ, hg⟩⟩

end Lib
end OrbitOpenEO
