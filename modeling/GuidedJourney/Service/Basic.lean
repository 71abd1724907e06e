import GuidedJourney.Value.Basic

namespace GuidedJourney

structure ServiceCall where
  name : String
  params : Fields

inductive ServiceReply where
  | success (payload : Value)
  | failure (error : Option String) (payload : Value)

/-- The answer of a service, and after how many seconds it comes; without a delay it comes at once. -/
structure TimedReply where
  delay : Option Binary64
  reply : ServiceReply

namespace ServiceReply

def isOk : ServiceReply → Bool
  | .success _ => true
  | .failure .. => false

def payload : ServiceReply → Value
  | .success v | .failure _ v => v

def error? : ServiceReply → Option String
  | .success _ => none
  | .failure e _ => e

def toDocument (r : ServiceReply) : Value :=
  .obj [("ok", .bool r.isOk), ("payload", r.payload), ("error", Value.ofOption r.error?)]

end ServiceReply

end GuidedJourney
