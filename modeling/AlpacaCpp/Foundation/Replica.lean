import Mathlib.Data.Finset.Union
import Mathlib.Data.Finset.Prod
import Mathlib.Data.List.Forall2

/-!
# A set replicated over an ordered link

One side announces the changes of a set, additions and removals, over a link that delivers in order;
the other side applies what has been delivered. Both halves are separate: `OrderedLink` is the link
with any kind of message, `SetOp.contents` is the set a list of changes amounts to. When the link is
drained, the far side holds the contents of everything announced (`received_of_drained`).

A link may also carry something else than what it stands for. `Mirrors R` puts two links next to each other
whose messages correspond one by one under `R`, sent and delivered alike, so a fact about what one of them
delivers is one about the other (`Mirrors.received`).

The sets are of pairs, a key with an element, and are given as lists of keys with their sets (`keyedPairs`).
-/

universe u

/-- The messages sent over a link since it was opened, a prefix of which has been delivered. -/
structure OrderedLink (α : Type u) where
  sent : List α
  delivered : ℕ
  delivered_le : delivered ≤ sent.length
  deriving DecidableEq

namespace OrderedLink

variable {α : Type u} {l l' : OrderedLink α}

/-- A link nothing has been sent over. -/
def opened : OrderedLink α := ⟨[], 0, le_rfl⟩

/-- Send one more message. -/
def send (l : OrderedLink α) (m : α) : OrderedLink α where
  sent := l.sent ++ [m]
  delivered := l.delivered
  delivered_le := by
    rw [List.length_append]
    exact l.delivered_le.trans (Nat.le_add_right _ _)

/-- The next message arrives, if one is under way. -/
def deliver? (l : OrderedLink α) : Option (OrderedLink α) :=
  if h : l.delivered < l.sent.length then some ⟨l.sent, l.delivered + 1, h⟩ else none

/-- What has arrived, in order. -/
def received (l : OrderedLink α) : List α := l.sent.take l.delivered

/-- Everything sent has arrived. -/
def Drained (l : OrderedLink α) : Prop := l.delivered = l.sent.length

instance (l : OrderedLink α) : Decidable l.Drained := inferInstanceAs (Decidable (_ = _))

@[simp] theorem sent_send (m : α) : (l.send m).sent = l.sent ++ [m] := rfl

/-- An arrival sends nothing. -/
theorem sent_of_deliver? (h : l.deliver? = some l') : l'.sent = l.sent := by
  unfold deliver? at h
  split at h
  · exact Option.some.inj h ▸ rfl
  · cases h

/-- What is drained has been received. -/
theorem received_of_drained (h : l.Drained) : l.received = l.sent := by
  rw [received, h, List.take_length]

/-! Two links next to each other. -/

/-- The messages of one link stand for those of another, one for one, and as many have arrived. -/
structure Mirrors {β : Type u} (R : α → β → Prop) (l : OrderedLink α) (m : OrderedLink β) : Prop where
  sent : List.Forall₂ R l.sent m.sent
  delivered : l.delivered = m.delivered

section Mirrors

variable {β : Type u} {R : α → β → Prop} {m : OrderedLink β}

theorem mirrors_opened : Mirrors R opened opened := ⟨.nil, rfl⟩

theorem Mirrors.send (h : Mirrors R l m) {a : α} {b : β} (hab : R a b) : Mirrors R (l.send a) (m.send b) :=
  ⟨List.rel_append h.sent (.cons hab .nil), h.delivered⟩

/-- A delivery on one is a delivery on the other. -/
theorem Mirrors.deliver? (h : Mirrors R l m) (hl : l.deliver? = some l') :
    ∃ m', m.deliver? = some m' ∧ Mirrors R l' m' := by
  unfold OrderedLink.deliver? at hl
  split at hl
  case isTrue hlt =>
    have hlt' : m.delivered < m.sent.length := h.delivered ▸ h.sent.length_eq ▸ hlt
    refine ⟨_, dif_pos hlt', ?_⟩
    obtain rfl := Option.some.inj hl
    exact ⟨h.sent, congrArg (· + 1) h.delivered⟩
  case isFalse => cases hl

/-- What has been received corresponds message by message. -/
theorem Mirrors.received (h : Mirrors R l m) : List.Forall₂ R l.received m.received := by
  rw [OrderedLink.received, OrderedLink.received, h.delivered]
  exact List.forall₂_take _ h.sent

/-- Two links that mirror each other are drained at the same time. -/
theorem Mirrors.drained_iff (h : Mirrors R l m) : l.Drained ↔ m.Drained := by
  rw [Drained, Drained, h.delivered, h.sent.length_eq]

end Mirrors

end OrderedLink

/-- A change of a set. -/
inductive SetOp (α : Type u)
  | add (s : Finset α)
  | remove (s : Finset α)

namespace SetOp

variable {α : Type u} [DecidableEq α]

/-- Apply a change. -/
def apply (s : Finset α) : SetOp α → Finset α
  | .add new => s ∪ new
  | .remove old => s \ old

/-- What a list of changes makes of the empty set. -/
def contents (ops : List (SetOp α)) : Finset α := ops.foldl apply ∅

theorem contents_concat (ops : List (SetOp α)) (op : SetOp α) :
    contents (ops ++ [op]) = apply (contents ops) op := List.foldl_concat ..

end SetOp

/-- The pairs of a list of keyed sets. -/
def keyedPairs {κ α : Type u} [DecidableEq κ] [DecidableEq α] (l : List (κ × Finset α)) :
    Finset (κ × α) := l.toFinset.biUnion fun e ↦ {e.1} ×ˢ e.2

/-- A pair is there when one of the sets of its key has the element. -/
theorem mem_keyedPairs {κ α : Type u} [DecidableEq κ] [DecidableEq α] {l : List (κ × Finset α)}
    {k : κ} {x : α} : (k, x) ∈ keyedPairs l ↔ ∃ s, (k, s) ∈ l ∧ x ∈ s := by
  simp only [keyedPairs, Finset.mem_biUnion, List.mem_toFinset, Finset.mem_product,
    Finset.mem_singleton]
  constructor
  · rintro ⟨⟨k', s⟩, hmem, rfl, hx⟩
    exact ⟨s, hmem, hx⟩
  · rintro ⟨s, hmem, hx⟩
    exact ⟨(k, s), hmem, rfl, hx⟩

/-- Where every key is listed once, looking it up finds what it is paired with. -/
theorem mem_keyedPairs_iff_lookup {κ α : Type u} [DecidableEq κ] [DecidableEq α] {l : List (κ × Finset α)}
    (hkeys : (l.map Prod.fst).Nodup) {k : κ} {x : α} : (k, x) ∈ keyedPairs l ↔ x ∈ (l.lookup k).getD ∅ := by
  rw [mem_keyedPairs]
  induction l with
  | nil => simp
  | cons e l ih =>
    obtain ⟨k', s⟩ := e
    rw [List.map_cons, List.nodup_cons] at hkeys
    rw [List.lookup_cons]
    by_cases h : k = k'
    · subst h
      rw [beq_self_eq_true]
      constructor
      · rintro ⟨s', hmem, hx⟩
        rcases List.mem_cons.1 hmem with heq | hmem
        · obtain ⟨-, rfl⟩ := Prod.mk.inj heq
          exact hx
        · exact absurd (List.mem_map_of_mem (f := Prod.fst) hmem) hkeys.1
      · exact fun hx ↦ ⟨s, List.mem_cons_self, hx⟩
    · rw [beq_eq_false_iff_ne.2 h, ← ih hkeys.2]
      simp [h]
