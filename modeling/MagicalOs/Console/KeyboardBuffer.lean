import MagicalOs.Library.ByteMemory

/-!
# The key code queue

`console_io.c` stores the scan codes of the keyboard in a ring buffer of 256
bytes.  Both indices are single bytes, so they wrap around by themselves, and
`is_full` tells the full buffer from the empty one.  Both operations report
through the shared variable `error_status`.
-/

namespace MagicalOs.Console.KeyboardBuffer

open MagicalOs.Library.ByteMemory

/-- `struct queue`, together with `error_status`. -/
structure KeycodeQueue where
  buf : Byte → Byte
  start : Byte
  «end» : Byte
  isFull : Byte
  errorStatus : Byte

/-- `con_init`: the buffer itself keeps its content. -/
def conInit (queue : KeycodeQueue) : KeycodeQueue :=
  { queue with start := 0#8, «end» := 0#8, isFull := 0#8, errorStatus := 0#8 }

def enqueue (queue : KeycodeQueue) (data : Byte) : KeycodeQueue :=
  if queue.isFull ≠ 0#8 then
    { queue with errorStatus := 1#8 }
  else
    let stored :=
      { queue with
        errorStatus := 0#8
        buf := fun index => if index = queue.end then data else queue.buf index
        «end» := queue.end + 1#8 }
    if stored.start = stored.end then { stored with isFull := 1#8 } else stored

def dequeue (queue : KeycodeQueue) : Byte × KeycodeQueue :=
  if queue.isFull = 0#8 ∧ queue.start = queue.end then
    (0#8, { queue with errorStatus := 1#8 })
  else
    (queue.buf queue.start,
      { queue with
        errorStatus := 0#8
        start := queue.start + 1#8
        isFull := 0#8 })

/-- A failed `enqueue` changes nothing but `error_status`. -/
theorem enqueue_full {queue : KeycodeQueue} (full : queue.isFull ≠ 0#8)
    (data : Byte) :
    enqueue queue data = { queue with errorStatus := 1#8 } := by
  rw [enqueue, if_pos full]

end MagicalOs.Console.KeyboardBuffer
