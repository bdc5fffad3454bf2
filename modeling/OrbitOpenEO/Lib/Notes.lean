import OrbitOpenEO.Lib.Effect

/-!
# Actions with notes

An action may be written a second time with notes of what it does, in a list beside
the state.  `Erases` says that without its notes it is the action it was made from,
`Notes` that all it notes has a property.
-/

namespace OrbitOpenEO
namespace Lib

variable {ε σ τ α β : Type}

/-- Code with a state that also takes notes. -/
abbrev Noted (ε σ τ α : Type) := EStateM ε (σ × List τ) α

/-- Code that takes no notes. -/
def silent (x : EStateM ε σ α) : Noted ε σ τ α := fun s =>
  match x s.1 with
  | .ok a t => .ok a (t, s.2)
  | .error e t => .error e (t, s.2)

/-- Take a note. -/
def note (t : τ) : Noted ε σ τ Unit := fun s => .ok () (s.1, s.2 ++ [t])

/-- The outcome without the notes. -/
def forgetNotes : EStateM.Result ε (σ × List τ) α → EStateM.Result ε σ α
  | .ok a s => .ok a s.1
  | .error e s => .error e s.1

/-- Without its notes the code is the other. -/
def Erases (x : Noted ε σ τ α) (y : EStateM ε σ α) : Prop :=
  ∀ s notes, forgetNotes (x (s, notes)) = y s

theorem erases_silent (x : EStateM ε σ α) : Erases (τ := τ) (silent x) x := by
  intro s notes
  unfold silent
  dsimp only
  cases x s with
  | ok a t =>
      rfl
  | error e t =>
      rfl

theorem erases_pure (a : α) : Erases (ε := ε) (σ := σ) (τ := τ) (pure a) (pure a) :=
  fun _ _ => rfl

theorem Erases.bind {x : Noted ε σ τ α} {y : EStateM ε σ α} {f : α → Noted ε σ τ β}
    {g : α → EStateM ε σ β} (hx : Erases x y) (hf : ∀ a, Erases (f a) (g a)) :
    Erases (x >>= f) (y >>= g) := by
  intro s notes
  have hxs := hx s notes
  simp only [Bind.bind, EStateM.bind]
  cases hres : x (s, notes) with
  | ok a t =>
      rw [hres] at hxs
      rw [← hxs]
      exact hf a t.1 t.2
  | error e t =>
      rw [hres] at hxs
      rw [← hxs]
      rfl

/-- A note changes nothing else. -/
theorem Erases.note_bind {t : τ} {x : Noted ε σ τ α} {y : EStateM ε σ α} (h : Erases x y) :
    Erases (note t >>= fun _ => x) y :=
  fun s notes => h s (notes ++ [t])

theorem Erases.mapEach {f : α → Noted ε σ τ β} {g : α → EStateM ε σ β}
    (h : ∀ a, Erases (f a) (g a)) : ∀ xs : List α, Erases (mapEach f xs) (mapEach g xs)
  | [] => erases_pure []
  | a :: xs => (h a).bind fun _ => (Erases.mapEach h xs).bind fun _ => erases_pure _

/-- Every note has the property. -/
def AllNoted (Ok : τ → Prop) (s : σ × List τ) : Prop := ∀ t ∈ s.2, Ok t

/-- All that the code notes has the property, however it ends. -/
def Notes (Ok : τ → Prop) (x : Noted ε σ τ α) : Prop :=
  ∀ s, AllNoted Ok s → Ends (AllNoted Ok) (x s)

variable {Ok : τ → Prop}

theorem notes_silent (x : EStateM ε σ α) : Notes Ok (silent x) := by
  intro s h
  unfold silent
  cases x s.1 with
  | ok a t =>
      exact h
  | error e t =>
      exact h

theorem notes_note {t : τ} (ht : Ok t) : Notes (ε := ε) (σ := σ) Ok (note t) := by
  intro s h t' ht'
  rcases List.mem_append.mp ht' with ht' | ht'
  · exact h t' ht'
  · rw [List.mem_singleton.mp ht']
    exact ht

theorem notes_pure (a : α) : Notes (ε := ε) (σ := σ) Ok (pure a) := fun _ h => h

theorem Notes.bind {x : Noted ε σ τ α} {f : α → Noted ε σ τ β} (hx : Notes Ok x)
    (hf : ∀ a, Notes Ok (f a)) : Notes Ok (x >>= f) :=
  fun s h => Outcome.bind (hx s h) fun a t ht => hf a t ht

/-- Code behind a check only has to do with what passes it. -/
theorem notes_check_bind {x : Except ε β} {f : β → Noted ε σ τ α}
    (hf : ∀ b, x = .ok b → Notes Ok (f b)) :
    Notes Ok (silent (attempt x) >>= f) := by
  intro s h
  cases x with
  | ok b =>
      exact hf b rfl s h
  | error e =>
      exact h

theorem Notes.mapEach {f : α → Noted ε σ τ β} {xs : List α} (h : ∀ a ∈ xs, Notes Ok (f a)) :
    Notes Ok (mapEach f xs) :=
  fun s hs => ends_mapEach (fun a ha t ht => h a ha t ht) s hs

/-- A note, once taken, stays. -/
def NotesStay (x : Noted ε σ τ α) : Prop :=
  ∀ s t, t ∈ s.2 → Ends (fun s' => t ∈ s'.2) (x s)

theorem notesStay_silent (x : EStateM ε σ α) : NotesStay (τ := τ) (silent x) := by
  intro s t h
  unfold silent
  cases x s.1 with
  | ok a s' =>
      exact h
  | error e s' =>
      exact h

theorem notesStay_note (t : τ) : NotesStay (ε := ε) (σ := σ) (note t) :=
  fun _ _ h => List.mem_append_left _ h

theorem notesStay_pure (a : α) : NotesStay (ε := ε) (σ := σ) (τ := τ) (pure a) := fun _ _ h => h

theorem NotesStay.bind {x : Noted ε σ τ α} {f : α → Noted ε σ τ β} (hx : NotesStay x)
    (hf : ∀ a, NotesStay (f a)) : NotesStay (x >>= f) :=
  fun s t h => Outcome.bind (hx s t h) fun a s' h' => hf a s' t h'

theorem NotesStay.mapEach {f : α → Noted ε σ τ β} (h : ∀ a, NotesStay (f a)) :
    ∀ xs : List α, NotesStay (mapEach f xs)
  | [] => notesStay_pure []
  | a :: xs => (h a).bind fun _ => (NotesStay.mapEach h xs).bind fun _ => notesStay_pure _

/-- The notes that are taken when nothing was noted before. -/
def notesOf (x : Noted ε σ τ α) (s : σ) : List τ := (finalState (x (s, []))).2

/-- All the notes of a run have the property. -/
theorem Notes.forall_mem {x : Noted ε σ τ α} (h : Notes Ok x) (s : σ) :
    ∀ t ∈ notesOf x s, Ok t :=
  (h (s, []) fun _ ht => absurd ht List.not_mem_nil).finalState

end Lib
end OrbitOpenEO
