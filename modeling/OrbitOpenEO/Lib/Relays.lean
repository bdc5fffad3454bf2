import Mathlib.Data.List.Infix
import Mathlib.Tactic.Common

/-!
# Relays

A sender puts items into a bounded queue; a forwarder takes them out one by one, translates
them and hands them to a second bounded queue; from there they travel to a listener, who may
hang up at any time.  A forwarder that cannot hand on an item because nobody listens any more
gives up, and from then on the sender talks to nobody.

`Faithful f sent r` is what holds between the moves: nothing is lost, doubled or put out of
order on the way of what was sent, as long as somebody listens.
-/

namespace OrbitOpenEO
namespace Lib

/-- The queue of the sender, the item in hand of the forwarder, the queue of the listener,
what is on the way to it, and what it has got. -/
structure Relay (α β : Type) where
  inbox : List α
  held : Option α
  outbox : List β
  wire : List β
  got : List β
  forwarding : Bool
  listening : Bool

/-- The moves of the relay itself. -/
inductive Hop where
  | take
  | hand
  | finish
  | ship
deriving DecidableEq

namespace Relay

variable {α β : Type}

/-- A relay at the start. -/
def fresh : Relay α β := ⟨[], none, [], [], [], true, true⟩

/-- What is on this side of the translation. -/
def pending (r : Relay α β) : List α := r.held.toList ++ r.inbox

/-- All that has been sent, as far as the relay knows it. -/
def all (f : α → β) (r : Relay α β) : List β :=
  r.got ++ (r.wire ++ (r.outbox ++ r.pending.map f))

/-- The sender waits for room, unless nobody forwards. -/
def offer (cap : Nat) (r : Relay α β) (a : α) : Option (Relay α β) :=
  if r.forwarding then
    if r.inbox.length < cap then some { r with inbox := r.inbox ++ [a] } else none
  else some r

/-- A forwarder that stops drops the queue of the sender. -/
def stop (r : Relay α β) : Relay α β := { r with inbox := [], held := none, forwarding := false }

/-- A listener that hangs up drops what is on its way. -/
def hangUp (r : Relay α β) : Relay α β := { r with outbox := [], wire := [], listening := false }

/-- A move; `ended` says whether the sender is gone. -/
def move (cap : Nat) (f : α → β) (ended : Bool) (r : Relay α β) : Hop → Option (Relay α β)
  | .take =>
      match r.forwarding, r.held, r.inbox with
      | true, none, a :: rest => some { r with held := some a, inbox := rest }
      | _, _, _ => none
  | .hand =>
      match r.forwarding, r.held with
      | true, some a =>
          if r.listening then
            if r.outbox.length < cap then
              some { r with held := none, outbox := r.outbox ++ [f a] }
            else none
          else some r.stop
      | _, _ => none
  | .finish =>
      match r.forwarding, r.held, r.inbox with
      | true, none, [] => if ended then some r.stop else none
      | _, _, _ => none
  | .ship =>
      match r.listening, r.outbox with
      | true, b :: rest => some { r with outbox := rest, wire := r.wire ++ [b] }
      | _, _ => none

/-- The listener takes the next item. -/
def read (r : Relay α β) : Option (β × Relay α β) :=
  match r.listening, r.wire with
  | true, b :: rest => some (b, { r with wire := rest, got := r.got ++ [b] })
  | _, _ => none

/-- The listener sees the end. -/
def isOver (r : Relay α β) : Bool :=
  r.listening && !r.forwarding && r.outbox.isEmpty && r.wire.isEmpty

/-- What holds of a relay after `sent`. -/
structure Faithful (f : α → β) (sent : List α) (r : Relay α β) : Prop where
  whole : r.listening = true → r.all f = sent.map f
  in_order : r.got <+: sent.map f
  idle : r.forwarding = false → r.pending = []

section Moves

variable {f : α → β} {sent : List α} {r r' : Relay α β} {cap : Nat} {ended : Bool}

theorem faithful_fresh : Faithful f [] (fresh : Relay α β) :=
  ⟨fun _ => rfl, List.prefix_rfl, nofun⟩

/-- What a move can do. -/
theorem move_cases {h : Hop} (hmove : r.move cap f ended h = some r') :
    (∃ a rest, r.forwarding = true ∧ r.held = none ∧ r.inbox = a :: rest ∧
      r' = { r with held := some a, inbox := rest }) ∨
    (∃ a, r.forwarding = true ∧ r.held = some a ∧ r.listening = true ∧
      r' = { r with held := none, outbox := r.outbox ++ [f a] }) ∨
    (∃ a, r.forwarding = true ∧ r.held = some a ∧ r.listening = false ∧ r' = r.stop) ∨
    (r.forwarding = true ∧ r.held = none ∧ r.inbox = [] ∧ ended = true ∧ r' = r.stop) ∨
    (∃ b rest, r.listening = true ∧ r.outbox = b :: rest ∧
      r' = { r with outbox := rest, wire := r.wire ++ [b] }) := by
  cases h with
  | take =>
      simp only [move] at hmove
      split at hmove
      · rename_i a rest hforward hheld hinbox
        exact .inl ⟨a, rest, hforward, hheld, hinbox, (Option.some.inj hmove).symm⟩
      · cases hmove
  | hand =>
      simp only [move] at hmove
      split at hmove
      · rename_i a hforward hheld
        split at hmove
        · rename_i hlisten
          split at hmove
          · exact .inr (.inl ⟨a, hforward, hheld, hlisten, (Option.some.inj hmove).symm⟩)
          · cases hmove
        · rename_i hlisten
          exact .inr (.inr (.inl ⟨a, hforward, hheld, by simpa using hlisten,
            (Option.some.inj hmove).symm⟩))
      · cases hmove
  | finish =>
      simp only [move] at hmove
      split at hmove
      · rename_i hforward hheld hinbox
        split at hmove
        · rename_i hended
          exact .inr (.inr (.inr (.inl ⟨hforward, hheld, hinbox, hended,
            (Option.some.inj hmove).symm⟩)))
        · cases hmove
      · cases hmove
  | ship =>
      simp only [move] at hmove
      split at hmove
      · rename_i b rest hlisten houtbox
        exact .inr (.inr (.inr (.inr ⟨b, rest, hlisten, houtbox, (Option.some.inj hmove).symm⟩)))
      · cases hmove

theorem move_got {h : Hop} (hmove : r.move cap f ended h = some r') : r'.got = r.got := by
  rcases move_cases hmove with ⟨_, _, _, _, _, rfl⟩ | ⟨_, _, _, _, rfl⟩ | ⟨_, _, _, _, rfl⟩ |
    ⟨_, _, _, _, rfl⟩ | ⟨_, _, _, _, rfl⟩ <;> rfl

theorem move_listening {h : Hop} (hmove : r.move cap f ended h = some r') :
    r'.listening = r.listening := by
  rcases move_cases hmove with ⟨_, _, _, _, _, rfl⟩ | ⟨_, _, _, _, rfl⟩ | ⟨_, _, _, _, rfl⟩ |
    ⟨_, _, _, _, rfl⟩ | ⟨_, _, _, _, rfl⟩ <;> rfl

/-- While somebody listens, the forwarder goes on until the sender is gone. -/
theorem move_forwarding {h : Hop} (hmove : r.move cap f ended h = some r')
    (hlisten : r.listening = true) (hforward : r.forwarding = false → ended = true) :
    r'.forwarding = false → ended = true := by
  rcases move_cases hmove with ⟨_, _, _, _, _, rfl⟩ | ⟨_, _, _, _, rfl⟩ | ⟨_, _, _, hdeaf, _⟩ |
    ⟨_, _, _, hended, _⟩ | ⟨_, _, _, _, rfl⟩
  · exact hforward
  · exact hforward
  · rw [hlisten] at hdeaf
    cases hdeaf
  · exact fun _ => hended
  · exact hforward

theorem Faithful.move (hr : Faithful f sent r) {h : Hop}
    (hmove : r.move cap f ended h = some r') : Faithful f sent r' := by
  refine ⟨fun hlisten' => ?_, by rw [move_got hmove]; exact hr.in_order, fun hidle => ?_⟩
  · have hlisten : r.listening = true := by rw [← move_listening hmove, hlisten']
    rw [← hr.whole hlisten]
    rcases move_cases hmove with ⟨_, _, _, hheld, hinbox, rfl⟩ | ⟨_, _, hheld, _, rfl⟩ |
      ⟨_, _, _, hdeaf, _⟩ | ⟨_, hheld, hinbox, _, rfl⟩ | ⟨_, _, _, houtbox, rfl⟩
    · simp [all, pending, hheld, hinbox]
    · simp [all, pending, hheld]
    · rw [hlisten] at hdeaf
      cases hdeaf
    · simp [all, pending, stop, hheld, hinbox]
    · simp [all, pending, houtbox]
  · rcases move_cases hmove with ⟨_, _, hforward, _, _, rfl⟩ | ⟨_, hforward, _, _, rfl⟩ |
      ⟨_, _, _, _, rfl⟩ | ⟨_, _, _, _, rfl⟩ | ⟨_, _, _, _, rfl⟩
    · exact absurd (hforward.symm.trans hidle) Bool.noConfusion
    · exact absurd (hforward.symm.trans hidle) Bool.noConfusion
    · rfl
    · rfl
    · exact hr.idle hidle

/-- One more item, which a relay without forwarder loses. -/
theorem Faithful.offer (hr : Faithful f sent r) {a : α}
    (hheard : r.listening = true → r.forwarding = true) (hoffer : r.offer cap a = some r') :
    Faithful f (sent ++ [a]) r' := by
  have hlonger : sent.map f <+: (sent ++ [a]).map f := by
    rw [List.map_append]
    exact List.prefix_append _ _
  unfold Relay.offer at hoffer
  split at hoffer
  · rename_i hforward
    split at hoffer
    · cases hoffer
      refine ⟨fun hlisten => ?_, hr.in_order.trans hlonger, fun hidle => ?_⟩
      · have hwhole := hr.whole hlisten
        simp only [all, pending, List.map_append, ← List.append_assoc] at hwhole ⊢
        rw [hwhole]
      · exact absurd (hforward.symm.trans hidle) Bool.noConfusion
    · cases hoffer
  · rename_i hforward
    cases hoffer
    exact ⟨fun hlisten => absurd (hheard hlisten) hforward, hr.in_order.trans hlonger, hr.idle⟩

theorem offer_got {a : α} (hoffer : r.offer cap a = some r') :
    r'.got = r.got ∧ r'.listening = r.listening ∧ r'.forwarding = r.forwarding := by
  unfold Relay.offer at hoffer
  split at hoffer
  · split at hoffer
    · cases hoffer
      exact ⟨rfl, rfl, rfl⟩
    · cases hoffer
  · cases hoffer
    exact ⟨rfl, rfl, rfl⟩

theorem read_eq_some {b : β} (hread : r.read = some (b, r')) :
    r.listening = true ∧
      ∃ rest, r.wire = b :: rest ∧ r' = { r with wire := rest, got := r.got ++ [b] } := by
  unfold Relay.read at hread
  split at hread
  · rename_i c rest hlisten hwire
    cases hread
    exact ⟨hlisten, rest, hwire, rfl⟩
  · cases hread

theorem Faithful.read (hr : Faithful f sent r) {b : β} (hread : r.read = some (b, r')) :
    Faithful f sent r' := by
  obtain ⟨hlisten, rest, hwire, rfl⟩ := read_eq_some hread
  have hwhole : (r.got ++ [b]) ++ (rest ++ (r.outbox ++ r.pending.map f)) = sent.map f := by
    rw [← hr.whole hlisten, all, hwire]
    simp
  exact ⟨fun _ => hwhole, ⟨_, hwhole⟩, hr.idle⟩

theorem Faithful.hangUp (hr : Faithful f sent r) : Faithful f sent r.hangUp :=
  ⟨nofun, hr.in_order, hr.idle⟩

/-- A listener that sees the end has got everything. -/
theorem Faithful.got_of_isOver (hr : Faithful f sent r) (hover : r.isOver = true) :
    r.got = sent.map f := by
  simp only [isOver, Bool.and_eq_true, Bool.not_eq_true', List.isEmpty_iff] at hover
  obtain ⟨⟨⟨hlisten, hforward⟩, houtbox⟩, hwire⟩ := hover
  rw [← hr.whole hlisten, all, hwire, houtbox, hr.idle hforward]
  simp

end Moves

section Drained

variable {f : α → β} {r : Relay α β} {cap : Nat}

/-- How many moves are left. -/
def weight (r : Relay α β) : Nat :=
  3 * r.inbox.length + 2 * r.held.toList.length + r.outbox.length

/-- Nothing is left on this side of the listener. -/
def Drained (r : Relay α β) : Prop := r.pending = [] ∧ (r.listening = true → r.outbox = [])

/-- Until then the relay has a move, and the move brings it closer. -/
theorem exists_move (hcap : 0 < cap) (hidle : r.forwarding = false → r.pending = [])
    (h : ¬ r.Drained) (ended : Bool) :
    ∃ h r', r.move cap f ended h = some r' ∧ r'.weight < r.weight := by
  by_cases hship : r.listening = true ∧ r.outbox ≠ []
  · obtain ⟨hlisten, hne⟩ := hship
    obtain ⟨b, rest, houtbox⟩ := List.exists_cons_of_ne_nil hne
    refine ⟨.ship, { r with outbox := rest, wire := r.wire ++ [b] }, ?_, ?_⟩
    · simp only [move, hlisten, houtbox]
    · simp [weight, houtbox]
  · have houtbox : r.listening = true → r.outbox = [] := fun hlisten => by
      by_contra hne
      exact hship ⟨hlisten, hne⟩
    have hpending : r.pending ≠ [] := fun hnil => h ⟨hnil, houtbox⟩
    have hforward : r.forwarding = true := by
      by_contra hforward
      exact hpending (hidle (by simpa using hforward))
    cases hheld : r.held with
    | some a =>
        cases hlisten : r.listening with
        | true =>
            refine ⟨.hand, { r with held := none, outbox := r.outbox ++ [f a] }, ?_, ?_⟩
            · simp [move, hforward, hheld, hlisten, houtbox hlisten, hcap]
            · simp only [weight, hheld, Option.toList_some, Option.toList_none, List.length_append,
                List.length_singleton, List.length_nil]
              omega
        | false =>
            refine ⟨.hand, r.stop, ?_, ?_⟩
            · simp [move, hforward, hheld, hlisten]
            · simp only [weight, stop, hheld, Option.toList_some, Option.toList_none,
                List.length_singleton, List.length_nil]
              omega
    | none =>
        have hne : r.inbox ≠ [] := by
          simpa [pending, hheld] using hpending
        obtain ⟨a, rest, hinbox⟩ := List.exists_cons_of_ne_nil hne
        refine ⟨.take, { r with held := some a, inbox := rest }, ?_, ?_⟩
        · simp only [move, hforward, hheld, hinbox]
        · simp only [weight, hheld, hinbox, Option.toList_some, Option.toList_none,
            List.length_cons, List.length_nil]
          omega

end Drained

end Relay

end Lib
end OrbitOpenEO
