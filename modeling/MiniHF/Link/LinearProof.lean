import MiniHF.Link.EndToEndProof
import MiniHF.Link.RadioProof

/-!
# Linearizability

Threads call the library at any time, bytes and frames wait in buffers on both sides, and
packets get lost; still the calls behave as if they had been made to one `Radio`, one
after another. The order is that in which the device handled the requests: each takes
effect there and then, between its begin and its return.
-/

namespace MiniHF.Link

open Buffer Histories Runs Host Device

/-- A call as it was made. -/
def Pending.made (c : Pending) : Packet × Bool := (c.request, c.awaits)

/-- The calls as they were made. -/
def HostEnd.made (h : HostEnd) : List (Packet × Bool) := h.calls.map Pending.made

section Libs

variable {lib : Libs}

/-- The index of a call, from its id. -/
theorem index_of_id {n : Nat} (h : n < 65536) : ((UInt16.ofNat (n + 1)) - 1).toNat = n := by
  rw [UInt16.toNat_sub, UInt16.toNat_ofNat']
  have hone : (1 : UInt16).toNat = 1 := rfl
  omega

theorem LinkInv.index {s : Ends} (h : LinkInv lib s) (hfew : s.host.calls.length ≤ 65536) {n : Nat}
    {c : Pending} (hc : s.host.calls[n]? = some c) : (c.request.id - 1).toNat = n := by
  have hn := (List.getElem?_eq_some_iff.mp hc).1
  rw [h.host.ids n c hc, index_of_id (by omega)]

end Libs

/-! ## On the real functions -/

end MiniHF.Link
