import PodCache.Pod.Services

/-!
# Faults

Services may be slow, and they may fail.  Faults are given for each kind of request and disturb
services that would respond otherwise.
-/

namespace PodCache

/-- What goes wrong with a request: it takes longer, or it fails with no effect. -/
structure Fault where
  delay : Nat := 0
  failure : Option Error := none
  deriving DecidableEq, Repr

/-- The faults of each kind of request. -/
abbrev Faults := Point → Fault

namespace Faults

/-- Nothing goes wrong. -/
def none : Faults := fun _ => {}

/-- The same faults but for one kind of request. -/
def set (faults : Faults) (point : Point) (fault : Fault) : Faults :=
  fun p => if p = point then fault else faults p

end Faults

/-- The services with faults. -/
def Services.disturbed {ω : Type} (faults : Faults) (services : Services ω) : Services ω :=
  fun r w =>
    let fault := faults r.point
    match fault.failure with
    | none =>
      let response := services r w
      { response with wait := fault.delay + response.wait }
    | some e => ⟨fault.delay, .error e, w⟩

end PodCache
