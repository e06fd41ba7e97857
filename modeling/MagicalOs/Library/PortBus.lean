import MagicalOs.Library.ByteMemory
import MagicalOs.Library.Triples

/-!
# Devices behind ports

A driver sees a device through port reads and writes, and through the time that
passes while it waits.  A bus is a state with these operations; the device may
answer as it likes.
-/

namespace MagicalOs.Library.PortBus

open MagicalOs.Library.ByteMemory

/-- The operations that a driver uses. -/
structure Bus (State : Type) where
  inb : Half → StateM State Byte
  outb : Byte → Half → StateM State Unit
  inw : Half → StateM State Half
  outw : Half → Half → StateM State Unit
  /-- Microseconds pass. -/
  wait : Nat → StateM State Unit

end MagicalOs.Library.PortBus
