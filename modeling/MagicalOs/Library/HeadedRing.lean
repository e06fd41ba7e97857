import MagicalOs.Library.LinkRing
import MagicalOs.Library.SentinelList

/-!
# Rings with a head

A head which is linked into a ring with its entries serves as the sentinel of
the list of entries: the forward links lead from it over the entries back to
it, so a search which stops at the head visits each entry once.
-/

namespace MagicalOs.Library.HeadedRing

open MagicalOs.Library.LinkRing
open MagicalOs.Library.SentinelList

variable {α : Type*} {next prev : α → α} {start stop head : α}
  {entries : List α}

/-- Adjacent nodes lead from the first one to the successor of the last one. -/
theorem path_of_chain
    (chain : (start :: entries).IsChain (Adjacent next prev))
    (closes : next ((start :: entries).getLast (by simp)) = stop) :
    Path next start entries stop := by
  induction entries generalizing start with
  | nil => exact closes
  | cons entry rest induction =>
      rcases List.isChain_cons_cons.mp chain with ⟨adjacent, later⟩
      constructor
      · exact adjacent.1
      · apply induction later
        rw [← closes, List.getLast_cons (List.cons_ne_nil entry rest)]

/-- The entries of a ring are listed from its head. -/
theorem listed_of_ring (ring : Ring next prev (head :: entries)) :
    Listed next head entries where
  nodup := ring.nodup
  path := path_of_chain ring.linked ring.adjacent_last.1

end MagicalOs.Library.HeadedRing
