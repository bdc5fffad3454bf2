import OrbitOpenEO.Lib.Interleaving

/-!
# What a program asks for

`safe act P Q p s`: whatever the replies, the program `p` makes each of its requests in a state
where it may be made, `P`, and ends with `Q`.  `safeTry` is the same for a program that may stop
with an error.  In an interleaved run a program that is safe stays safe, for a view of the state
that the others leave alone (`Runs.safe`).
-/

namespace OrbitOpenEO
namespace Lib
namespace Program

variable {Req : Type} {Rep : Req → Type} {σ υ ι ε α β : Type}

/-- Each request is made with `P`, and the program ends with `Q`. -/
def safe (act : σ → (q : Req) → Rep q → σ → Prop) (P : σ → Req → Prop) (Q : α → σ → Prop) :
    Program Rep α → σ → Prop
  | .done a, s => Q a s
  | .call q next, s => P s q ∧ ∀ r t, act s q r t → safe act P Q (next r) t

variable {act : σ → (q : Req) → Rep q → σ → Prop} {P : σ → Req → Prop}

theorem safe_mono {Q Q' : α → σ → Prop} (h : ∀ a s, Q a s → Q' a s) :
    ∀ {p : Program Rep α} {s : σ}, safe act P Q p s → safe act P Q' p s
  | .done a, s, hp => h a s hp
  | .call _ _, _, hp => ⟨hp.1, fun r t hact => safe_mono h (hp.2 r t hact)⟩

theorem safe_bind {f : α → Program Rep β} {Q : α → σ → Prop} {Q' : β → σ → Prop}
    (hf : ∀ a t, Q a t → safe act P Q' (f a) t) :
    ∀ {p : Program Rep α} {s : σ}, safe act P Q p s → safe act P Q' (p >>= f) s
  | .done a, s, hp => hf a s hp
  | .call _ _, _, hp => ⟨hp.1, fun r t hact => safe_bind hf (hp.2 r t hact)⟩

/-- A single request. -/
theorem safe_request {q : Req} {Q : Rep q → σ → Prop} {s : σ} (hP : P s q)
    (hQ : ∀ r t, act s q r t → Q r t) : safe act P Q (Program.request q) s :=
  ⟨hP, hQ⟩

/-- A program that is safe alone stays safe beside others that leave its view alone. -/
theorem Runs.safe {act : υ → (q : Req) → Rep q → υ → Prop} {P : υ → Req → Prop}
    {Q : α → υ → Prop} {act' : σ → (q : Req) → Rep q → σ → Prop} {env : σ → ι → σ → Prop}
    (view : σ → υ) (hact : ∀ s q r t, act' s q r t → act (view s) q r (view t))
    (henv : ∀ s e t, env s e t → view t = view s) {p p' : Program Rep α} {s s' : σ}
    {ls : List (Label Rep ι)} (h : Runs act' env p s ls p' s')
    (hp : Program.safe act P Q p (view s)) : Program.safe act P Q p' (view s') := by
  induction h with
  | refl => exact hp
  | task ha _ ih => exact ih (hp.2 _ _ (hact _ _ _ _ ha))
  | other he _ ih =>
      rw [← henv _ _ _ he] at hp
      exact ih hp

/-- `safe` with a postcondition for each way to end. -/
def safeTry (act : σ → (q : Req) → Rep q → σ → Prop) (P : σ → Req → Prop) (Q : α → σ → Prop)
    (E : ε → σ → Prop) (p : ExceptT ε (Program Rep) α) (s : σ) : Prop :=
  safe act P (fun
    | .ok a, t => Q a t
    | .error e, t => E e t) p.run s

variable {Q : α → σ → Prop} {Q' : β → σ → Prop} {E : ε → σ → Prop} {s : σ}

theorem safeTry_bind {p : ExceptT ε (Program Rep) α} {f : α → ExceptT ε (Program Rep) β}
    (h : safeTry act P Q E p s) (hf : ∀ a t, Q a t → safeTry act P Q' E (f a) t) :
    safeTry act P Q' E (p >>= f) s := by
  refine safe_bind (fun x t hx => ?_) h
  cases x with
  | ok a => exact hf a t hx
  | error e => exact hx

theorem safeTry_pure {a : α} (h : Q a s) :
    safeTry act P Q E (pure a : ExceptT ε (Program Rep) α) s := h

end Program
end Lib
end OrbitOpenEO
