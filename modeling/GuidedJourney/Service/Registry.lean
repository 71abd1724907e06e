import GuidedJourney.Service.Basic

namespace GuidedJourney

structure Handler where
  delay : Option Binary64
  answer : Fields → ServiceReply

structure Registry where
  handlers : List (String × Handler) := []
  fallback : Option (ServiceCall → TimedReply) := none

namespace Registry

def register (r : Registry) (name : String) (h : Handler) : Registry :=
  { r with handlers := (name, h) :: r.handlers.filter (·.1 != name) }

def unregister (r : Registry) (name : String) : Registry :=
  { r with handlers := r.handlers.filter (·.1 != name) }

def has (r : Registry) (name : String) : Bool := (r.handlers.lookup name).isSome

def serve (r : Registry) (c : ServiceCall) : TimedReply :=
  match r.handlers.lookup c.name, r.fallback with
  | some h, _ => ⟨h.delay, h.answer c.params⟩
  | none, some serve => serve c
  | none, none => ⟨none, .failure (some ("Service not registered: " ++ c.name)) .null⟩

end Registry

end GuidedJourney
