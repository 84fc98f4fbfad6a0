import Counselle.Protocol.Event

/-! The ordered emission stream a turn record is built from (`app/records.py`). -/
namespace Counselle.Records
open Protocol

inductive Emission where
  | delta (text : String)
  | viz (spec : Payload)
  | step (data : StepData)
  | thinking (text : String)
  | narration (text : String)
  | user (data : UserMessage)
  /-- where a clarifying question stands; its spec is on the record -/
  | clarify
deriving DecidableEq, Repr

/-- `FinalEmissionDeduper.keep` for a viz: whether its signature is new, and the
signatures seen from then on. -/
def keepViz (signature : Payload → String) (seen : List String) (spec : Payload) :
    Bool × List String :=
  if signature spec ∈ seen then (false, seen) else (true, signature spec :: seen)

end Counselle.Records
