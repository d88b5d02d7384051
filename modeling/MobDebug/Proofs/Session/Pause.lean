import MobDebug.Proofs.Session.Run

/-! A pause that was read before the program was resumed is stale: whoever brings it to the session,
and however late, changes nothing. -/
namespace MobDebug
open Channel (Entry Request acceptedIn sentIn eventsIn)
open Wire (Location)

namespace Session
variable {s : Session} {l : Link} {r : Request} {id : Nat} {pre post : List Entry}

theorem enterPaused_stale {after : Nat} (h : after < s.core.resumedAt) (location : Location) :
    s.enterPaused location after = s :=
  if_pos h

/-- What was on the wire before a command that resumes the program is older than the resumption. -/
theorem Tended.lt_resumedAt {c : Channel} {n : Nat} (h : Tended c n)
    (hj : c.journal = pre ++ post) (hr : r ∈ acceptedIn c.journal) (hres : r.name.resumes)
    (hn : r.id ∉ sentIn pre) (hid : id ∈ sentIn pre) : id < n := by
  have hk : r ∈ Channel.keptIn c.journal := by
    rwa [Channel.keptIn_of_untaken h.untaken]
  have hlt := h.ledger.lt_of_not_sent hj hk hn id hid
  have hle := h.resumed r hr hres
  omega

/-- The event of a pause tells an older command than one that was not on the wire yet. -/
theorem Tended.after_lt {c : Channel} {n after : Nat} {location : Location} (h : Tended c n)
    (hj : c.journal = pre ++ .event (.paused location after) :: post)
    (hr : r ∈ acceptedIn c.journal) (hres : r.name.resumes) (hn : r.id ∉ sentIn pre) :
    after < n := by
  have hafter : after = (sentIn pre).getLast?.getD 0 := h.reports _ _ _ hj
  rw [hafter]
  cases hlast : (sentIn pre).getLast? with
  | some id => exact h.lt_resumedAt hj hr hres hn (List.mem_of_getLast? hlast)
  | none =>
    have hpos := h.ledger.positive r hr
    have hle := h.resumed r hr hres
    rw [Option.getD_none]
    omega

end Session

namespace Debugger
variable {s u : Debugger} {l : Link} {r : Request} {pre post : List Entry} {location : Location}
  {after : Nat}

end Debugger
end MobDebug
