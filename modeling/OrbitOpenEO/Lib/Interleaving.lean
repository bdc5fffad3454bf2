import OrbitOpenEO.Lib.Program

/-!
# Programs beside their environment

A program makes its requests on a state that it shares with others.  `act s q r t` says
that the request `q` may get the reply `r` and lead from `s` to `t`; `env s e t` is a step
`e` that somebody else takes.

* `Runs` interleaves the two; its labels say what happened.
* `wp act Q p s`: whatever the replies, the program ends with `Q` if nobody interferes.
* `wpTry` is `wp` for a program that may stop with an error.

Facts about `wp` hold of interleaved runs when they concern a part of the state that the
others leave alone (`Runs.wp`).
-/

namespace OrbitOpenEO
namespace Lib
namespace Program

variable {Req : Type} {Rep : Req → Type} {σ υ ι ε α β : Type}

/-- One step of a run. -/
inductive Label (Rep : Req → Type) (ι : Type) where
  | task (x : Exchange Rep)
  | other (e : ι)

/-- The program takes a step whenever its request is answered, the others at any time. -/
inductive Runs (act : σ → (q : Req) → Rep q → σ → Prop) (env : σ → ι → σ → Prop) :
    Program Rep α → σ → List (Label Rep ι) → Program Rep α → σ → Prop
  | refl (p : Program Rep α) (s : σ) : Runs act env p s [] p s
  | task {q : Req} {next : Rep q → Program Rep α} {r : Rep q} {s t s' : σ}
      {ls : List (Label Rep ι)} {p' : Program Rep α} :
      act s q r t → Runs act env (next r) t ls p' s' →
      Runs act env (.call q next) s (.task ⟨q, r⟩ :: ls) p' s'
  | other {p p' : Program Rep α} {e : ι} {s t s' : σ} {ls : List (Label Rep ι)} :
      env s e t → Runs act env p t ls p' s' → Runs act env p s (.other e :: ls) p' s'

variable {act : σ → (q : Req) → Rep q → σ → Prop} {env : σ → ι → σ → Prop}

namespace Runs

variable {p p' : Program Rep α} {s s' : σ} {ls : List (Label Rep ι)}

/-- A run is cut where its labels are. -/
theorem split {ls₁ ls₂ : List (Label Rep ι)} (h : Runs act env p s (ls₁ ++ ls₂) p' s') :
    ∃ p₁ s₁, Runs act env p s ls₁ p₁ s₁ ∧ Runs act env p₁ s₁ ls₂ p' s' := by
  induction ls₁ generalizing p s with
  | nil => exact ⟨p, s, .refl p s, h⟩
  | cons l ls₁ ih =>
      cases h with
      | task hact hrun =>
          obtain ⟨p₁, s₁, h₁, h₂⟩ := ih hrun
          exact ⟨p₁, s₁, .task hact h₁, h₂⟩
      | other henv hrun =>
          obtain ⟨p₁, s₁, h₁, h₂⟩ := ih hrun
          exact ⟨p₁, s₁, .other henv h₁, h₂⟩

/-- Runs follow one another. -/
theorem trans {p₁ : Program Rep α} {s₁ : σ} {ls' : List (Label Rep ι)}
    (h : Runs act env p s ls p₁ s₁) (h' : Runs act env p₁ s₁ ls' p' s') :
    Runs act env p s (ls ++ ls') p' s' := by
  induction h with
  | refl => exact h'
  | task ha _ ih => exact .task ha (ih h')
  | other he _ ih => exact .other he (ih h')

/-- What every step preserves holds at the end. -/
theorem invariant {I : σ → Prop} (h : Runs act env p s ls p' s') (hs : I s)
    (hact : ∀ s q r t, I s → act s q r t → I t)
    (henv : ∀ s e t, I s → env s e t → I t) : I s' := by
  induction h with
  | refl => exact hs
  | task ha _ ih => exact ih (hact _ _ _ _ hs ha)
  | other he _ ih => exact ih (henv _ _ _ hs he)

end Runs

/-- If every request can be answered, a program comes to its end. -/
theorem exists_runs_done (env : σ → ι → σ → Prop) (htotal : ∀ s q, ∃ r t, act s q r t) :
    ∀ (p : Program Rep α) (s : σ), ∃ ls a t, Runs act env p s ls (.done a) t
  | .done a, s => ⟨[], a, s, .refl _ _⟩
  | .call q next, s => by
      obtain ⟨r, t, hact⟩ := htotal s q
      obtain ⟨ls, a, u, hrun⟩ := exists_runs_done env htotal (next r) t
      exact ⟨_, a, u, .task hact hrun⟩

/-- The end of a program in an environment that answers and moves by a function. -/
def follow (script : σ → (q : Req) → Rep q × σ) : Program Rep α → σ → α × σ
  | .done a, s => (a, s)
  | .call q next, s => follow script (next (script s q).1) (script s q).2

/-- That end is reached by a run. -/
theorem exists_runs_follow (env : σ → ι → σ → Prop) {script : σ → (q : Req) → Rep q × σ}
    (hact : ∀ s q, act s q (script s q).1 (script s q).2) :
    ∀ (p : Program Rep α) (s : σ),
      ∃ ls, Runs act env p s ls (.done (follow script p s).1) (follow script p s).2
  | .done _, _ => ⟨[], .refl _ _⟩
  | .call q next, s => by
      obtain ⟨ls, hrun⟩ := exists_runs_follow env hact (next (script s q).1) (script s q).2
      exact ⟨_, .task (hact s q) hrun⟩

/-- The first `n` exchanges in such an environment. -/
def steps (script : σ → (q : Req) → Rep q × σ) : Nat → Program Rep α → σ → Program Rep α × σ
  | n + 1, .call q next, s => steps script n (next (script s q).1) (script s q).2
  | _, p, s => (p, s)

theorem exists_runs_steps (env : σ → ι → σ → Prop) {script : σ → (q : Req) → Rep q × σ}
    (hact : ∀ s q, act s q (script s q).1 (script s q).2) :
    ∀ (n : Nat) (p : Program Rep α) (s : σ),
      ∃ ls, Runs act env p s ls (steps script n p s).1 (steps script n p s).2
  | 0, _, _ => ⟨[], .refl _ _⟩
  | _ + 1, .done _, _ => ⟨[], .refl _ _⟩
  | n + 1, .call q next, s => by
      obtain ⟨ls, hrun⟩ := exists_runs_steps env hact n (next (script s q).1) (script s q).2
      exact ⟨_, .task (hact s q) hrun⟩

/-- Whatever is replied, the program ends with `Q`. -/
def wp (act : σ → (q : Req) → Rep q → σ → Prop) (Q : α → σ → Prop) : Program Rep α → σ → Prop
  | .done a, s => Q a s
  | .call q next, s => ∀ r t, act s q r t → wp act Q (next r) t

theorem wp_bind {f : α → Program Rep β} {Q : β → σ → Prop} :
    ∀ {p : Program Rep α} {s : σ},
      wp act Q (p >>= f) s ↔ wp act (fun a t => wp act Q (f a) t) p s
  | .done _, _ => Iff.rfl
  | .call _ _, _ => forall_congr' fun _ => forall_congr' fun _ => imp_congr_right fun _ => wp_bind

theorem wp_mono {Q Q' : α → σ → Prop} (h : ∀ a s, Q a s → Q' a s) :
    ∀ {p : Program Rep α} {s : σ}, wp act Q p s → wp act Q' p s
  | .done a, s, hp => h a s hp
  | .call _ _, _, hp => fun r t hact => wp_mono h (hp r t hact)

/-- Two postconditions at once. -/
theorem wp_and {Q Q' : α → σ → Prop} :
    ∀ {p : Program Rep α} {s : σ}, wp act Q p s → wp act Q' p s →
      wp act (fun a t => Q a t ∧ Q' a t) p s
  | .done _, _, h, h' => ⟨h, h'⟩
  | .call _ _, _, h, h' => fun r t hact => wp_and (h r t hact) (h' r t hact)

/-- What every exchange preserves holds at the end, whatever the program. -/
theorem wp_of_invariant {I : σ → Prop} (hact : ∀ s q r t, I s → act s q r t → I t) :
    ∀ (p : Program Rep α) (s : σ), I s → wp act (fun _ => I) p s
  | .done _, _, hs => hs
  | .call q next, s, hs => fun r t h => wp_of_invariant hact (next r) t (hact s q r t hs h)

/-- What is known of the program alone holds beside others, for a view of the state that
the others do not change. -/
theorem Runs.wp {act' : υ → (q : Req) → Rep q → υ → Prop} {Q : α → υ → Prop} (view : σ → υ)
    (hact : ∀ s q r t, act s q r t → act' (view s) q r (view t))
    (henv : ∀ s e t, env s e t → view t = view s)
    {p p' : Program Rep α} {s s' : σ} {ls : List (Label Rep ι)}
    (h : Runs act env p s ls p' s') (hp : Program.wp act' Q p (view s)) :
    Program.wp act' Q p' (view s') := by
  induction h with
  | refl => exact hp
  | task ha _ ih => exact ih (hp _ _ (hact _ _ _ _ ha))
  | other he _ ih =>
      rw [← henv _ _ _ he] at hp
      exact ih hp

/-- A state that keeps account of the exchanges, at the end of a path. -/
theorem Path.of_wp {note : σ → Exchange Rep → σ} {Q : α → σ → Prop} {p : Program Rep α}
    {tr : List (Exchange Rep)} {a : α} (hpath : Path p tr a) {s : σ}
    (h : Program.wp (fun s q r t => t = note s ⟨q, r⟩) Q p s) : Q a (tr.foldl note s) := by
  induction hpath generalizing s with
  | done a =>
      exact h
  | call _ ih =>
      exact ih (h _ _ rfl)

/-- `wp` with a postcondition for each way to end. -/
def wpTry (act : σ → (q : Req) → Rep q → σ → Prop) (Q : α → σ → Prop) (E : ε → σ → Prop)
    (p : ExceptT ε (Program Rep) α) (s : σ) : Prop :=
  wp act (fun
    | .ok a, t => Q a t
    | .error e, t => E e t) p.run s

theorem wpTry_bind {Q : β → σ → Prop} {E : ε → σ → Prop} {p : ExceptT ε (Program Rep) α}
    {f : α → ExceptT ε (Program Rep) β} {s : σ} :
    wpTry act Q E (p >>= f) s ↔ wpTry act (fun a t => wpTry act Q E (f a) t) E p s := by
  have hbind : (p >>= f).run = p.run >>= ExceptT.bindCont f := rfl
  unfold wpTry
  rw [hbind, wp_bind]
  refine ⟨wp_mono fun a t h => ?_, wp_mono fun a t h => ?_⟩
  · cases a with
    | ok a => exact h
    | error e => exact h
  · cases a with
    | ok a => exact h
    | error e => exact h

theorem wpTry_pure {Q : α → σ → Prop} {E : ε → σ → Prop} {a : α} {s : σ} :
    wpTry act Q E (pure a) s ↔ Q a s := Iff.rfl

theorem wpTry_mono {Q Q' : α → σ → Prop} {E E' : ε → σ → Prop} {p : ExceptT ε (Program Rep) α}
    {s : σ} (hQ : ∀ a t, Q a t → Q' a t) (hE : ∀ e t, E e t → E' e t)
    (h : wpTry act Q E p s) : wpTry act Q' E' p s := by
  refine wp_mono (fun a t ha => ?_) h
  cases a with
  | ok a => exact hQ a t ha
  | error e => exact hE e t ha

theorem wpTry_and {Q Q' : α → σ → Prop} {E E' : ε → σ → Prop} {p : ExceptT ε (Program Rep) α}
    {s : σ} (h : wpTry act Q E p s) (h' : wpTry act Q' E' p s) :
    wpTry act (fun a t => Q a t ∧ Q' a t) (fun e t => E e t ∧ E' e t) p s := by
  refine wp_mono (fun a t ha => ?_) (wp_and h h')
  cases a with
  | ok a => exact ha
  | error e => exact ha

/-- In an environment that replies by a function, a step that succeeds is followed by the next. -/
theorem answer_bind_of_ok (reply : (q : Req) → Rep q) {p : ExceptT ε (Program Rep) α}
    {f : α → ExceptT ε (Program Rep) β} {a : α} (h : p.run.answer reply = .ok a) :
    (p >>= f).run.answer reply = (f a).run.answer reply := by
  have hbind : (p >>= f).run = p.run >>= ExceptT.bindCont f := rfl
  rw [hbind, answer_bind, h]
  rfl

end Program
end Lib
end OrbitOpenEO
