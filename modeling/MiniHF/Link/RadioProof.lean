import MiniHF.Host.ApiProof
import MiniHF.Host.Commands
import MiniHF.Lib.Histories

/-!
# The radio as its user knows it

To the user of the library a radio is a clock, a base frequency and a switch, and every
method of the library says what it does to them and what it answers. `Radio` is that, with
no packets, no ids and no buffers in it; where the drivers have a say it allows both
outcomes. A device that handles the packet of a method does what its `Radio` allows.
-/

namespace MiniHF.Link

open Host Device LittleEndian

namespace Radio

end Radio

/-! ## The radio a device is -/

section Commands

variable {d : Device} {p : Packet}

end Commands

/-! ## The method behind a packet -/

end MiniHF.Link
