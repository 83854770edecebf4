import Mathlib.Tactic.Common

/-!
# Bounded queues with non-blocking sends

A queue of capacity `cap`, as the list of everything ever placed in it and how much of that has
been taken out. Both the queue's content and its whole past are read off these two.

* `offer` — a send that gives up when the queue is full.
* `take?` — the oldest element, if there is one.
-/

/-- A queue that holds at most `cap` elements. -/
structure Chan (cap : Nat) (α : Type*) where
  sent : List α
  taken : Nat
  taken_le : taken ≤ sent.length
  bounded : sent.length ≤ taken + cap

namespace Chan

variable {α : Type*} {cap : Nat}

def empty : Chan cap α := ⟨[], 0, Nat.le_refl 0, Nat.zero_le _⟩

/-- What has been taken out, oldest first. -/
def received (q : Chan cap α) : List α := q.sent.take q.taken

/-- What is waiting, oldest first. -/
def buffer (q : Chan cap α) : List α := q.sent.drop q.taken

def Full (q : Chan cap α) : Prop := q.sent.length = q.taken + cap

instance (q : Chan cap α) : Decidable q.Full := inferInstanceAs (Decidable (_ = _))

/-- Place `x`, unless the queue is full. -/
def offer (q : Chan cap α) (x : α) : Chan cap α :=
  if h : q.Full then q
  else
    { sent := q.sent ++ [x]
      taken := q.taken
      taken_le := by have := q.taken_le; simp; omega
      bounded := by have := q.bounded; unfold Full at h; simp; omega }

/-- Take the oldest element. -/
def take? (q : Chan cap α) : Option (α × Chan cap α) :=
  if h : q.taken < q.sent.length then
    some (q.sent[q.taken],
      { sent := q.sent
        taken := q.taken + 1
        taken_le := h
        bounded := by have := q.bounded; omega })
  else none

@[simp] theorem sent_empty : (empty : Chan cap α).sent = [] := rfl

@[simp] theorem taken_empty : (empty : Chan cap α).taken = 0 := rfl

theorem offer_of_full {q : Chan cap α} (h : q.Full) (x : α) : q.offer x = q := by
  rw [offer, dif_pos h]

theorem sent_offer_of_not_full {q : Chan cap α} (h : ¬ q.Full) (x : α) :
    (q.offer x).sent = q.sent ++ [x] := by
  rw [offer, dif_neg h]

@[simp] theorem taken_offer (q : Chan cap α) (x : α) : (q.offer x).taken = q.taken := by
  unfold offer
  split <;> rfl

theorem sent_offer (q : Chan cap α) (x : α) :
    (q.Full ∧ (q.offer x).sent = q.sent) ∨ (¬ q.Full ∧ (q.offer x).sent = q.sent ++ [x]) := by
  by_cases h : q.Full
  · exact Or.inl ⟨h, by rw [offer_of_full h]⟩
  · exact Or.inr ⟨h, sent_offer_of_not_full h x⟩

theorem sent_prefix_offer (q : Chan cap α) (x : α) : q.sent <+: (q.offer x).sent := by
  rcases q.sent_offer x with ⟨-, h⟩ | ⟨-, h⟩
  · exact ⟨[], by rw [h, List.append_nil]⟩
  · exact ⟨[x], h.symm⟩

theorem sent_offer_sublist {q : Chan cap α} {xs : List α} (h : q.sent.Sublist xs) (x : α) :
    (q.offer x).sent.Sublist (xs ++ [x]) := by
  rcases q.sent_offer x with ⟨-, hsent⟩ | ⟨-, hsent⟩
  · rw [hsent]
    exact h.trans (List.sublist_append_left xs [x])
  · rw [hsent]
    exact h.append (List.Sublist.refl [x])

@[simp] theorem received_offer (q : Chan cap α) (x : α) : (q.offer x).received = q.received := by
  rcases q.sent_offer x with ⟨-, h⟩ | ⟨-, h⟩
  · simp [received, h]
  · simp [received, h, List.take_append_of_le_length q.taken_le]

theorem buffer_offer_of_not_full {q : Chan cap α} (h : ¬ q.Full) (x : α) :
    (q.offer x).buffer = q.buffer ++ [x] := by
  rw [buffer, buffer, sent_offer_of_not_full h, taken_offer,
    List.drop_append_of_le_length q.taken_le]

theorem buffer_prefix_offer (q : Chan cap α) (x : α) : q.buffer <+: (q.offer x).buffer := by
  by_cases h : q.Full
  · exact ⟨[], by rw [offer_of_full h, List.append_nil]⟩
  · exact ⟨[x], (buffer_offer_of_not_full h x).symm⟩

theorem take?_cases {q q' : Chan cap α} {x : α} (h : q.take? = some (x, q')) :
    q.sent[q.taken]? = some x ∧ q'.sent = q.sent ∧ q'.taken = q.taken + 1 := by
  unfold take? at h
  split at h
  · cases h
    exact ⟨List.getElem?_eq_getElem _, rfl, rfl⟩
  · cases h

theorem received_of_take? {q q' : Chan cap α} {x : α} (h : q.take? = some (x, q')) :
    q'.received = q.received ++ [x] := by
  obtain ⟨hx, hsent, htaken⟩ := take?_cases h
  rw [received, received, hsent, htaken, List.take_add_one, hx]
  rfl

theorem buffer_of_take? {q q' : Chan cap α} {x : α} (h : q.take? = some (x, q')) :
    q.buffer = x :: q'.buffer := by
  obtain ⟨hx, hsent, htaken⟩ := take?_cases h
  rw [buffer, buffer, hsent, htaken]
  obtain ⟨hlt, hget⟩ := List.getElem?_eq_some_iff.1 hx
  rw [List.drop_eq_getElem_cons hlt, hget]

end Chan
