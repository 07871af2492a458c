import Mathlib.Data.List.Basic
import Mathlib.Data.List.ReduceOption

/-!
# A queue that is ended by a sentinel

Any number of producers put items into a FIFO queue, one consumer takes them out, and a sentinel
says that nothing more comes. A `Channel` also keeps what has gone in and out, which no program
reads.

When nothing is put in behind the sentinel, a consumer that has met it has taken out everything, in
the order in which it went in: a channel is `Flowing` until it is closed, `Closing` while the
sentinel is in it and `Drained` when the consumer has met it.
-/

/-- A queue of items, where `none` is the sentinel. -/
structure Channel (α : Type) where
  queue : List (Option α)
  /-- The items that were put in, in order. -/
  sent : List α
  /-- The items that were taken out, in order. -/
  received : List α

namespace Channel

variable {α : Type}

/-- A channel that nothing has gone through. -/
def empty : Channel α where
  queue := []
  sent := []
  received := []

/-- An item goes in. -/
def put (c : Channel α) (a : α) : Channel α :=
  { c with queue := c.queue ++ [some a], sent := c.sent ++ [a] }

/-- The sentinel goes in. -/
def close (c : Channel α) : Channel α := { c with queue := c.queue ++ [none] }

/-- The next item or sentinel goes out, when there is one. -/
def get (c : Channel α) : Option (Option α × Channel α) :=
  match c.queue with
  | [] => none
  | some a :: rest => some (some a, { c with queue := rest, received := c.received ++ [a] })
  | none :: rest => some (none, { c with queue := rest })

/-- What went in has come out or stands in the queue, in order, with no sentinel behind it. -/
def Flowing (c : Channel α) : Prop :=
  ∃ items, c.queue = items.map some ∧ c.sent = c.received ++ items

/-- What went in has come out or stands in the queue, in order, with the sentinel behind it. -/
def Closing (c : Channel α) : Prop :=
  ∃ items, c.queue = items.map some ++ [none] ∧ c.sent = c.received ++ items

/-- What went in has come out. -/
def Drained (c : Channel α) : Prop := c.queue = [] ∧ c.received = c.sent

variable {c c' : Channel α} {a : α} {item : Option α}

theorem flowing_empty : (empty : Channel α).Flowing := ⟨[], rfl, rfl⟩

/-- An open channel stays open when something is put in. -/
theorem Flowing.put (h : c.Flowing) (a : α) : (c.put a).Flowing := by
  obtain ⟨items, hqueue, hsent⟩ := h
  refine ⟨items ++ [a], ?_, ?_⟩
  · rw [Channel.put, hqueue, List.map_append]
    rfl
  · rw [Channel.put, hsent, List.append_assoc]

/-- Closing puts the mark behind all that was sent. -/
theorem Flowing.close (h : c.Flowing) : c.close.Closing := by
  obtain ⟨items, hqueue, hsent⟩ := h
  exact ⟨items, by rw [Channel.close, hqueue], hsent⟩

/-- Taking out an item moves it to the end of what was received. -/
theorem get_eq_some_some (h : c.get = some (some a, c')) :
    c.queue = some a :: c'.queue ∧ c'.sent = c.sent ∧ c'.received = c.received ++ [a] := by
  rw [get] at h
  split at h
  case h_1 => cases h
  case h_2 b rest hqueue =>
    cases h
    exact ⟨hqueue, rfl, rfl⟩
  case h_3 => cases h

/-- A reader that gets the mark has received nothing more. -/
theorem get_eq_some_none (h : c.get = some (none, c')) :
    c.queue = none :: c'.queue ∧ c'.sent = c.sent ∧ c'.received = c.received := by
  rw [get] at h
  split at h
  case h_1 => cases h
  case h_2 => cases h
  case h_3 rest hqueue =>
    cases h
    exact ⟨hqueue, rfl, rfl⟩

/-- What comes out of a channel that is not closed is an item. -/
theorem Flowing.get (h : c.Flowing) (hget : c.get = some (item, c')) :
    ∃ a, item = some a ∧ c'.Flowing := by
  obtain ⟨items, hqueue, hsent⟩ := h
  cases item with
  | none =>
    obtain ⟨hnone, -⟩ := get_eq_some_none hget
    rw [hnone] at hqueue
    cases items <;> cases hqueue
  | some a =>
    obtain ⟨hsome, hsent', hreceived⟩ := get_eq_some_some hget
    rw [hsome] at hqueue
    cases items with
    | nil => cases hqueue
    | cons b items =>
      obtain ⟨hab, hrest⟩ := List.cons.inj hqueue
      obtain rfl := Option.some.inj hab
      exact ⟨a, rfl, items, hrest, by rw [hsent', hsent, hreceived, List.append_assoc]; rfl⟩

/-- What comes out of a closed channel is an item, or the sentinel behind all of them. -/
theorem Closing.get (h : c.Closing) (hget : c.get = some (item, c')) :
    (∃ a, item = some a ∧ c'.Closing) ∨ item = none ∧ c'.Drained := by
  obtain ⟨items, hqueue, hsent⟩ := h
  cases item with
  | none =>
    obtain ⟨hnone, hsent', hreceived⟩ := get_eq_some_none hget
    rw [hnone] at hqueue
    cases items with
    | nil =>
      -- the sentinel is last, so everything sent has been received
      refine .inr ⟨rfl, (List.cons.inj hqueue).2, ?_⟩
      rw [hreceived, hsent', hsent, List.append_nil]
    | cons b items => cases (List.cons.inj hqueue).1
  | some a =>
    obtain ⟨hsome, hsent', hreceived⟩ := get_eq_some_some hget
    rw [hsome] at hqueue
    cases items with
    | nil => cases (List.cons.inj hqueue).1
    | cons b items =>
      obtain ⟨hab, hrest⟩ := List.cons.inj hqueue
      obtain rfl := Option.some.inj hab
      refine .inl ⟨a, rfl, items, hrest, ?_⟩
      rw [hsent', hsent, hreceived, List.append_assoc]
      rfl

/-- Nothing gets lost on the way: what went in has come out or stands in the queue, in order. -/
def Conserved (c : Channel α) : Prop := c.sent = c.received ++ c.queue.reduceOption

theorem conserved_empty : (empty : Channel α).Conserved := rfl

/-- What is put in is waiting or received. -/
theorem Conserved.put (h : c.Conserved) (a : α) : (c.put a).Conserved := by
  unfold Conserved at h ⊢
  simp only [Channel.put]
  rw [h, List.append_assoc, List.reduceOption_append, List.reduceOption_cons_of_some,
    List.reduceOption_nil]

/-- Closing loses nothing. -/
theorem Conserved.close (h : c.Conserved) : c.close.Conserved := by
  unfold Conserved at h ⊢
  simp only [Channel.close]
  rw [h, List.reduceOption_append, List.reduceOption_cons_of_none, List.reduceOption_nil,
    List.append_nil]

/-- Reading moves an item from the queue to the received. -/
theorem Conserved.get (h : c.Conserved) (hget : c.get = some (item, c')) : c'.Conserved := by
  unfold Conserved at h ⊢
  cases item with
  | none =>
    obtain ⟨hqueue, hsent, hreceived⟩ := get_eq_some_none hget
    rw [hsent, hreceived, h, hqueue, List.reduceOption_cons_of_none]
  | some a =>
    obtain ⟨hqueue, hsent, hreceived⟩ := get_eq_some_some hget
    rw [hsent, hreceived, h, hqueue, List.reduceOption_cons_of_some, List.append_assoc]
    rfl

end Channel
