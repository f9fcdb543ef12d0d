/-!
# Lines

A line carries items one way. What goes in comes out, in order, some time later;
`taken` remembers what has come out. `stream` is everything that ever went in, and
the two laws say that sending appends to it and taking leaves it alone.
-/

/-- A line, with what it has delivered and what it still holds. -/
structure Pipe (α : Type) where
  /-- Proof only: the items taken out, in order. -/
  taken : List α
  /-- The items on their way, oldest first. -/
  inside : List α

namespace Pipe

variable {α : Type}

/-- A line nothing has been sent on. -/
def empty : Pipe α := ⟨[], []⟩

/-- Put items in. -/
def send (p : Pipe α) (xs : List α) : Pipe α := { p with inside := p.inside ++ xs }

/-- Take up to `n` items out. -/
def take (p : Pipe α) (n : Nat) : List α × Pipe α :=
  (p.inside.take n, ⟨p.taken ++ p.inside.take n, p.inside.drop n⟩)

/-- Everything that was ever sent. -/
def stream (p : Pipe α) : List α := p.taken ++ p.inside

@[simp] theorem stream_empty : (empty : Pipe α).stream = [] := rfl

@[simp] theorem taken_empty : (empty : Pipe α).taken = [] := rfl

@[simp] theorem taken_send (p : Pipe α) (xs : List α) : (p.send xs).taken = p.taken := rfl

@[simp] theorem stream_send (p : Pipe α) (xs : List α) : (p.send xs).stream = p.stream ++ xs := by
  rw [stream, stream, send, List.append_assoc]

theorem send_nil (p : Pipe α) : p.send [] = p := by
  rw [send, List.append_nil]

@[simp] theorem taken_take (p : Pipe α) (n : Nat) :
    (p.take n).2.taken = p.taken ++ (p.take n).1 := rfl

@[simp] theorem stream_take (p : Pipe α) (n : Nat) : (p.take n).2.stream = p.stream := by
  rw [stream, stream, take, List.append_assoc, List.take_append_drop]

/-- **What has come out is a beginning of what went in.** -/
theorem taken_prefix (p : Pipe α) : p.taken <+: p.stream := ⟨p.inside, rfl⟩

/-- What stands first on the line comes out next. -/
theorem take_one {p : Pipe α} {x : α} {xs : List α} (h : p.inside = x :: xs) :
    p.take 1 = ([x], ⟨p.taken ++ [x], xs⟩) := by
  rw [take, h]
  rfl

end Pipe
