import LlmGateway.Planner.Candidates
import Mathlib.Data.Finset.Insert

/-!
# The allocation of scene targets

Within a window of time each event of a scene is given a target whose coordinates no other event
has been given (`scene_target_allocator.py`). The windows that are older than the retention admits,
seen from the event that is being served, are forgotten together with the results of their events.
-/

namespace LlmGateway

structure WindowKey where
  gatewayId : String
  sceneId : ℤ
  controlGeneration : ℤ
  windowIndex : ℤ
deriving DecidableEq

structure AllocationKey where
  gatewayId : String
  sessionId : String
  eventId : String
deriving DecidableEq

/-- The settings of a `SceneTargetAllocator`, as its constructor admits them. -/
structure AllocatorSettings where
  windowMs : ℤ := 5000
  retentionWindows : ℤ := 2
  windowMs_pos : 0 < windowMs
  retentionWindows_pos : 1 ≤ retentionWindows

structure AllocateCall where
  gatewayId : String
  sessionId : String
  eventId : String
  sceneId : ℤ
  controlGeneration : ℤ
  occurredAtMs : ℤ
  candidates : List SceneTarget
  preferredTargetId : Option String := none

namespace AllocateCall

def eventKey (call : AllocateCall) : AllocationKey where
  gatewayId := call.gatewayId
  sessionId := call.sessionId
  eventId := call.eventId

def windowKey (settings : AllocatorSettings) (call : AllocateCall) : WindowKey where
  gatewayId := call.gatewayId
  sceneId := call.sceneId
  controlGeneration := call.controlGeneration
  windowIndex := call.occurredAtMs / settings.windowMs

/-- The checks of the arguments. -/
def check (call : AllocateCall) : Except String Unit := do
  if isBlankString call.gatewayId || isBlankString call.sessionId || isBlankString call.eventId then
    throw "gateway_id, session_id, and event_id must be non-empty"
  if call.sceneId < 0 ∨ call.controlGeneration ≤ 0 ∨ call.occurredAtMs < 0 then
    throw "scene_id, control_generation, and occurred_at_ms are invalid"

/-- The call is served. -/
def Valid (call : AllocateCall) : Prop := call.check = .ok ()

instance : DecidablePred Valid := fun _ ↦ inferInstanceAs (Decidable (_ = _))

end AllocateCall

/-- `_preferred_first`. Of candidates that are one object the source drops all behind the first
one; they have its coordinates, so that none of them is selected here either. -/
def preferredFirst (candidates : List SceneTarget) : Option String → List SceneTarget
  | none => candidates
  | some preferredTargetId =>
    match candidates.find? fun target ↦ target.targetId = preferredTargetId with
    | none => candidates
    | some preferred =>
      preferred :: candidates.eraseP fun target ↦ target.targetId = preferredTargetId

/-- The windows with their claimed coordinates, and the results of the events. -/
structure SceneTargetAllocator (κ : Type) where
  windows : WindowKey → Option (Finset κ) := fun _ ↦ none
  eventResults : AllocationKey → Option (WindowKey × Option SceneTarget) := fun _ ↦ none

namespace SceneTargetAllocator

variable {κ : Type} (settings : AllocatorSettings)

/-- `_cleanup` -/
def cleanup (allocator : SceneTargetAllocator κ) (currentWindowIndex : ℤ) :
    SceneTargetAllocator κ where
  windows key :=
    if key.windowIndex < currentWindowIndex - settings.retentionWindows then none
    else allocator.windows key
  eventResults key := (allocator.eventResults key).filter fun result ↦
    ¬result.1.windowIndex < currentWindowIndex - settings.retentionWindows

variable [DecidableEq κ] (comparisonKey : List (Text × Json) → κ)

/-- The first candidate whose coordinates are not claimed. -/
def select (call : AllocateCall) (claimed : Finset κ) : Option SceneTarget :=
  (preferredFirst call.candidates call.preferredTargetId).find? fun target ↦
    comparisonKey target.coordinates ∉ claimed

/-- The target is claimed in the window, and is the result of the event. -/
def reserve (allocator : SceneTargetAllocator κ) (windowKey : WindowKey) (key : AllocationKey)
    (selected : Option SceneTarget) : SceneTargetAllocator κ where
  windows := Function.update allocator.windows windowKey <| some <|
    match selected with
    | none => (allocator.windows windowKey).getD ∅
    | some target =>
      insert (comparisonKey target.coordinates) ((allocator.windows windowKey).getD ∅)
  eventResults := Function.update allocator.eventResults key (some (windowKey, selected))

/-- `allocate`, with the key by which coordinates are compared. -/
def allocate (allocator : SceneTargetAllocator κ) (call : AllocateCall) :
    Except String (Option SceneTarget × SceneTargetAllocator κ) := do
  call.check
  let windowKey := call.windowKey settings
  let allocator := allocator.cleanup settings windowKey.windowIndex
  match allocator.eventResults call.eventKey with
  | some previous => return (previous.2, allocator)
  | none =>
    let selected := select comparisonKey call ((allocator.windows windowKey).getD ∅)
    return (selected, allocator.reserve comparisonKey windowKey call.eventKey selected)

/-- The allocator after a call. -/
def serve (allocator : SceneTargetAllocator κ) (call : AllocateCall) : SceneTargetAllocator κ :=
  ((allocator.allocate settings comparisonKey call).map (·.2)).toOption.getD allocator

/-- What a call returns. -/
def answer (allocator : SceneTargetAllocator κ) (call : AllocateCall) :
    Except String (Option SceneTarget) :=
  (allocator.allocate settings comparisonKey call).map (·.1)

end SceneTargetAllocator

end LlmGateway
