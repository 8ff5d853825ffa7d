import LlmGateway.Contract.Event
import LlmGateway.Store.Rows

/-!
# Actions of the agent

What the agent may choose for a lease. A tracked action is a call of a skill that carries all of
the tracking metadata.
-/

namespace LlmGateway

/-- The action that the agent chose, with the parameters of each kind. -/
inductive ActionKind where
  | callSkill (skillName schemaVersion : String) (arguments : List (Text × Json))
      (tracking : Option GoalTrackingMetadata)
  | wait (waitMs : ℕ)
  | noOp
  | stopHosting
deriving DecidableEq

/-- `GatewayV2AgentAction`. -/
structure AgentAction where
  reason : String
  ttlMs : ℕ
  kind : ActionKind
deriving DecidableEq

def ActionKind.action : ActionKind → DecisionAction
  | callSkill .. => .callSkill
  | wait _ => .wait
  | noOp => .noOp
  | stopHosting => .stopHosting

/-- The skill that the action calls, with its version. -/
def ActionKind.skill? : ActionKind → Option (String × String)
  | callSkill skillName schemaVersion _ _ => some (skillName, schemaVersion)
  | _ => none

/-- `tracking_metadata`. -/
def ActionKind.tracking? : ActionKind → Option GoalTrackingMetadata
  | callSkill _ _ _ tracking => tracking
  | _ => none

end LlmGateway
