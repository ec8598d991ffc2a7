import Mathlib.Data.List.Basic

namespace Vppsb.NextFrames

variable {β : Type}

/-- The frames that a node fills for its next nodes. `current` is what has been
written to the frame for `nextIndex`, `left` is the room in it, and `sent` are
the frames that have been put, with the next indices they go to. -/
structure Frames (β : Type) where
  nextIndex : Nat
  left : Nat
  gets : Nat
  current : List β
  sent : List (Nat × List β)

def noFrames : Frames β := ⟨0, 0, 0, [], []⟩

/-- The `k`-th frame that a node gets has room for `room k + 1` entries. -/
def getNextFrame (room : Nat → Nat) (l : Frames β) (next : Nat) : Frames β :=
  { l with nextIndex := next, left := room l.gets + 1, gets := l.gets + 1, current := [] }

def putNextFrame (l : Frames β) : Frames β := { l with sent := l.sent ++ [(l.nextIndex, l.current)] }

def write (l : Frames β) (b : β) : Frames β :=
  { l with current := l.current ++ [b], left := l.left - 1 }

/-- The entry that was written last is taken for `b`. If `b` has another next
index, that entry is given up, and `b` goes to a frame for its own index. -/
def validateBufferEnqueue (room : Nat → Nat) (l : Frames β) (b : β) (next0 : Nat) : Frames β :=
  if next0 = l.nextIndex then l
  else
    let l := putNextFrame { l with current := l.current.dropLast, left := l.left + 1 }
    write (getNextFrame room l next0) b

/-- The frame to write to: a new one when the current one is full. -/
def withRoom (room : Nat → Nat) (l : Frames β) : Frames β :=
  if l.left = 0 then getNextFrame room (putNextFrame l) l.nextIndex else l

def enqueued (sent : List (Nat × List β)) : List (Nat × β) :=
  sent.flatMap (fun f => f.2.map (fun b => (f.1, b)))

def placed (l : Frames β) : List (Nat × β) :=
  enqueued l.sent ++ l.current.map (fun b => (l.nextIndex, b))

variable {room : Nat → Nat} {l : Frames β} {b : β} {next0 : Nat}

@[simp] theorem enqueued_putNextFrame : enqueued (putNextFrame l).sent = placed l := by
  simp [enqueued, putNextFrame, placed]

theorem placed_get (l : Frames β) (next : Nat) :
    placed (getNextFrame room l next) = enqueued l.sent := List.append_nil _

@[simp] theorem placed_getNextFrame (l : Frames β) (next : Nat) :
    placed (getNextFrame room (putNextFrame l) next) = placed l := by
  rw [placed_get, enqueued_putNextFrame]

@[simp] theorem nextIndex_withRoom : (withRoom room l).nextIndex = l.nextIndex := by
  rw [withRoom]
  split <;> rfl

@[simp] theorem placed_withRoom : placed (withRoom room l) = placed l := by
  rw [withRoom]
  split
  · exact placed_getNextFrame l l.nextIndex
  · rfl

theorem nextIndex_validate : (validateBufferEnqueue room l b next0).nextIndex = next0 := by
  rw [validateBufferEnqueue]
  split
  · exact Eq.symm ‹_›
  · rfl

theorem placed_validate_write :
    placed (validateBufferEnqueue room (write l b) b next0) = placed l ++ [(next0, b)] := by
  have hindex : (write l b).nextIndex = l.nextIndex := rfl
  rw [validateBufferEnqueue, hindex]
  by_cases hnext : next0 = l.nextIndex
  · rw [if_pos hnext, placed, placed, hnext]
    simp [write]
  · have hdrop : (write l b).current.dropLast = l.current := List.dropLast_concat
    have hput := enqueued_putNextFrame (l := { write l b with
      current := l.current, left := (write l b).left + 1 })
    rw [if_neg hnext, hdrop]
    exact congrArg (· ++ [(next0, b)]) hput

/-- Validating an entry that has not been written enqueues it, unless the frame
is for its next index already. -/
theorem mem_placed_validate (hne : next0 ≠ l.nextIndex) :
    (next0, b) ∈ placed (validateBufferEnqueue room l b next0) := by
  rw [validateBufferEnqueue, if_neg hne]
  simp [placed, write, getNextFrame]

theorem validate_same : validateBufferEnqueue room l b l.nextIndex = l := if_pos rfl

end Vppsb.NextFrames
