import PresenceTracker.Engine.Site

/-!
# When a node last wrote a user

A write of nothing but activity is skipped while the node's last write of the user lies
less than an interval back. A user whose window is closed need not be tracked: such a
slot and a missing one give the same answers, so it is forgotten at the end of an
operation on the user and after every sweep.
-/

namespace PresenceTracker

/-- Whether a write of nothing but activity at `now` falls into the window that the last
write opened. A node that never wrote the user always writes. -/
def coalesces (last : Option Moment) (now interval : Moment) : Bool :=
  last.any fun moment => Moment.since now moment < interval

namespace Site

/-- Whether a write of a user's activity at this moment is skipped. -/
def skipsWrite (site : Site) (user : String) : Bool :=
  coalesces site.slots[user]? site.clock site.settings.minUpdateInterval

end Site

namespace Engine

/-- Notes that the user's row was written at this moment. -/
def notePersisted (user : String) : StateM Site Unit :=
  modify fun site => { site with slots := site.slots.insert user site.clock }

/-- Notes that the user's row was written by the sweep at `now`. -/
def noteSwept (user : String) (now : Moment) : StateM Site Unit :=
  modify fun site => { site with slots := site.slots.insert user now }

/-- Forgets a user. -/
def forget (user : String) : StateM Site Unit :=
  modify fun site => { site with slots := site.slots.erase user }

/-- Ends an operation on a user, who is forgotten if the window is closed. -/
def release (user : String) : StateM Site Unit :=
  modify fun site =>
    if site.skipsWrite user then site else { site with slots := site.slots.erase user }

/-- Forgets every user whose window is closed at `now`. -/
def pruneSlots (now : Moment) : StateM Site Unit :=
  modify fun site =>
    { site with
      slots := site.slots.filter fun _ moment =>
        coalesces (some moment) now site.settings.minUpdateInterval }

end Engine

end PresenceTracker
