import Mathlib.Tactic.Common

/-!
# Programs that call their environment

A `Program` is a tree of calls: each node makes one request and continues with
the reply.  It says what a piece of asynchronous code does between its awaits
and nothing about who answers.

* `Path p tr a`: with the exchanges `tr`, and nothing else, `p` returns `a`.
* `AllCalls P p`: whatever the replies, `p` makes only requests in `P`.
* `Throughout J tr p`: after the exchanges `tr`, and after every later one, `J` holds
  of the exchanges so far and of what is left of the program.
* `answer` and `transcript` run a program against a function that replies.

A property of all paths holds whatever the environment does; a property of
`answer` holds for one environment.  `path_answer` links the two.
-/

namespace OrbitOpenEO
namespace Lib

/-- A computation that makes requests; `Rep q` is the type of replies to `q`. -/
inductive Program {Req : Type} (Rep : Req → Type) (α : Type) : Type
  | done (a : α) : Program Rep α
  | call (q : Req) (next : Rep q → Program Rep α) : Program Rep α

namespace Program

variable {Req : Type} {Rep : Req → Type} {α β : Type}

/-- Sequencing. -/
def bind : Program Rep α → (α → Program Rep β) → Program Rep β
  | .done a, f => f a
  | .call q next, f => .call q (fun r => (next r).bind f)

instance : Monad (Program Rep) where
  pure := .done
  bind := Program.bind

@[simp] theorem done_bind (a : α) (f : α → Program Rep β) :
    (Program.done a >>= f) = f a := rfl

@[simp] theorem call_bind (q : Req) (next : Rep q → Program Rep α) (f : α → Program Rep β) :
    (Program.call q next >>= f) = .call q (fun r => next r >>= f) := rfl

/-- A single request. -/
def request (q : Req) : Program Rep (Rep q) := .call q .done

/-- A request together with the reply it got. -/
structure Exchange (Rep : Req → Type) where
  req : Req
  reply : Rep req

/-- `p` returns `a` after exactly these exchanges. -/
inductive Path : Program Rep α → List (Exchange Rep) → α → Prop
  | done (a : α) : Path (.done a) [] a
  | call {q : Req} {next : Rep q → Program Rep α} {r : Rep q}
      {tr : List (Exchange Rep)} {a : α} :
      Path (next r) tr a → Path (.call q next) (⟨q, r⟩ :: tr) a

@[simp] theorem path_done_iff {a b : α} {tr : List (Exchange Rep)} :
    Path (.done a) tr b ↔ tr = [] ∧ b = a := by
  constructor
  · rintro ⟨⟩
    exact ⟨rfl, rfl⟩
  · rintro ⟨rfl, rfl⟩
    exact .done _

theorem path_call_iff {q : Req} {next : Rep q → Program Rep α}
    {tr : List (Exchange Rep)} {a : α} :
    Path (.call q next) tr a ↔ ∃ r tr', tr = ⟨q, r⟩ :: tr' ∧ Path (next r) tr' a := by
  constructor
  · rintro ⟨⟩
    exact ⟨_, _, rfl, ‹_›⟩
  · rintro ⟨r, tr', rfl, h⟩
    exact .call h

/-- The paths of a sequence are the concatenations of paths of its parts. -/
theorem path_bind_iff {p : Program Rep α} {f : α → Program Rep β}
    {tr : List (Exchange Rep)} {b : β} :
    Path (p >>= f) tr b ↔
      ∃ tr₁ tr₂ a, tr = tr₁ ++ tr₂ ∧ Path p tr₁ a ∧ Path (f a) tr₂ b := by
  induction p generalizing tr with
  | done a =>
      simp
  | call q next ih =>
      simp only [call_bind, path_call_iff, ih]
      constructor
      · rintro ⟨r, _, rfl, tr₁, tr₂, a, rfl, h₁, h₂⟩
        exact ⟨_, tr₂, a, rfl, ⟨r, tr₁, rfl, h₁⟩, h₂⟩
      · rintro ⟨_, tr₂, a, rfl, ⟨r, tr₁, rfl, h₁⟩, h₂⟩
        exact ⟨r, _, rfl, tr₁, tr₂, a, rfl, h₁, h₂⟩

/-- What is only computed from the value of a program leaves its paths as they are. -/
theorem path_bind_done_iff {p : Program Rep α} {f : α → β} {tr : List (Exchange Rep)} {b : β} :
    Path (p >>= fun a => .done (f a)) tr b ↔ ∃ a, Path p tr a ∧ b = f a := by
  rw [path_bind_iff]
  simp only [path_done_iff]
  constructor
  · rintro ⟨tr₁, _, a, rfl, hpath, rfl, rfl⟩
    rw [List.append_nil]
    exact ⟨a, hpath, rfl⟩
  · rintro ⟨a, hpath, rfl⟩
    exact ⟨tr, [], a, (List.append_nil tr).symm, hpath, rfl, rfl⟩

/-- Every request the program may still make satisfies `P`, whatever the replies. -/
def AllCalls (P : Req → Prop) : Program Rep α → Prop
  | .done _ => True
  | .call q next => P q ∧ ∀ r, (next r).AllCalls P

theorem AllCalls.mono {P Q : Req → Prop} (hPQ : ∀ q, P q → Q q) {p : Program Rep α}
    (h : p.AllCalls P) : p.AllCalls Q := by
  induction p with
  | done a => trivial
  | call q next ih => exact ⟨hPQ q h.1, fun r => ih r (h.2 r)⟩

/-- `J` holds of the exchanges made and of the program left, now and whatever is
replied from now on. -/
def Throughout (J : List (Exchange Rep) → Program Rep α → Prop) :
    List (Exchange Rep) → Program Rep α → Prop
  | tr, .done a => J tr (.done a)
  | tr, .call q next =>
      J tr (.call q next) ∧ ∀ r, Throughout J (tr ++ [⟨q, r⟩]) (next r)

section Throughout

variable {J : List (Exchange Rep) → Program Rep α → Prop} {tr : List (Exchange Rep)}

theorem Throughout.here {p : Program Rep α} (h : p.Throughout J tr) : J tr p := by
  cases p with
  | done a =>
      exact h
  | call q next =>
      exact h.1

theorem Throughout.next {q : Req} {next : Rep q → Program Rep α}
    (h : (Program.call q next).Throughout J tr) (r : Rep q) :
    (next r).Throughout J (tr ++ [⟨q, r⟩]) :=
  h.2 r

end Throughout

section Answer

variable (reply : (q : Req) → Rep q)

/-- The result of a program in an environment that replies by a function. -/
def answer : Program Rep α → α
  | .done a => a
  | .call q next => (next (reply q)).answer

/-- The exchanges of that run. -/
def transcript : Program Rep α → List (Exchange Rep)
  | .done _ => []
  | .call q next => ⟨q, reply q⟩ :: (next (reply q)).transcript

theorem answer_bind (f : α → Program Rep β) :
    ∀ p : Program Rep α, (p >>= f).answer reply = (f (p.answer reply)).answer reply
  | .done _ => rfl
  | .call q next => answer_bind f (next (reply q))

theorem transcript_bind (f : α → Program Rep β) :
    ∀ p : Program Rep α,
      (p >>= f).transcript reply =
        p.transcript reply ++ (f (p.answer reply)).transcript reply
  | .done _ => rfl
  | .call q next => congrArg (_ :: ·) (transcript_bind f (next (reply q)))

/-- That run is one of the program's paths. -/
theorem path_answer : ∀ p : Program Rep α, Path p (p.transcript reply) (p.answer reply)
  | .done a => .done a
  | .call q next => .call (path_answer (next (reply q)))

/-- In the transcript every reply is the function's. -/
theorem reply_eq_of_mem_transcript {x : Exchange Rep} :
    ∀ {p : Program Rep α}, x ∈ p.transcript reply → x.reply = reply x.req
  | .call q next, h => by
      rcases List.mem_cons.mp h with rfl | h
      · rfl
      · exact reply_eq_of_mem_transcript h

end Answer

end Program

end Lib
end OrbitOpenEO
