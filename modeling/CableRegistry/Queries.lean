import CableRegistry.Registry

/-!
# The other queries

The answers about an endpoint, about the whole graph and about the history of an object.  An
answer is cut off once it is as long as the limit, which is checked after an entry was added,
so an answer that has an entry at all keeps at least one (`firstEntries`).

`queryPort_cases`, `queryObject_cases` and `queryHistory_cases` say when a query is refused
and which view it returns otherwise.
-/

open Std

namespace CableRegistry

structure EndpointView where
  id : EndpointId := {}
  kind : EndpointKind := .unknown
  name : Text := []
  administrativeLocation : Text := []
  portCount : UInt32 := 0
  defaultPortCapability : PortCapability := {}
  ports : List PortView := []
  deriving Repr, DecidableEq

structure TopologyView where
  registry : RegistryId := {}
  summary : GraphSummary := {}
  validationPolicy : ValidationPolicy := .includeAll
  objects : List ObjectView := []
  endpoints : List EndpointView := []
  ports : List PortView := []
  deriving Repr, DecidableEq

structure ObjectHistory where
  object : ObjectId := {}
  events : List LifecycleEvent := []
  droppedEvents : UInt32 := 0
  deriving Repr, DecidableEq

/-- The entries of an answer up to the limit. -/
def firstEntries {α : Type} (limits : Limits) (l : List α) : List α :=
  l.take (max 1 limits.maxSnapshotEntries.toNat)

namespace Registry

def queryEndpoint (registry : Registry) (endpoint : EndpointId) (includePorts : Bool)
    (policy : ValidationPolicy) : Outcome EndpointView := do
  refuseIf endpoint.isNil ⟨.invalidArgument, "the endpoint identity is nil"⟩
  match winningEndpoint registry.state endpoint with
  | none => .error ⟨.notFound, "the endpoint is not registered"⟩
  | some registration =>
    let descriptor := registration.value
    pure
      { id := endpoint
        kind := descriptor.kind
        name := descriptor.name
        administrativeLocation := descriptor.administrativeLocation
        portCount := descriptor.portCount
        defaultPortCapability := descriptor.defaultPortCapability
        ports := if includePorts then
            (List.range descriptor.portCount.toNat).map fun index =>
              derivePortView registry.state registry.limits ⟨endpoint, UInt32.ofNat index⟩ policy
          else [] }

def queryTopology (registry : Registry) (options : QueryOptions) : TopologyView :=
  let objects := firstEntries registry.limits <|
    (registry.state.objectRegistrations.toList.filter fun entry =>
      options.object.isNil || options.object == entry.1).map fun entry =>
        deriveObjectView registry.state registry.limits entry.1 options
  let endpoints := firstEntries registry.limits <|
    (registry.state.endpointRegistrations.toList.filter fun entry =>
      options.endpoint.isNil || options.endpoint == entry.1).filterMap fun entry =>
        (registry.queryEndpoint entry.1 options.includeEndpointPorts options.validationPolicy).toOption
  let ports := if options.object.isNil then
      firstEntries registry.limits <|
        (registry.state.portRecords.toList.filter fun entry =>
          options.endpoint.isNil || options.endpoint == entry.1.endpoint).map fun entry =>
            derivePortView registry.state registry.limits entry.1 options.validationPolicy
    else []
  { registry := registry.state.id
    summary := summarize ports objects (countFencedClaims registry.state)
      (countPendingClaims registry.state)
    validationPolicy := options.validationPolicy
    objects := objects
    endpoints := endpoints
    ports := ports }

def queryHistory (registry : Registry) (object : ObjectId) (maxEvents : UInt32) :
    Outcome ObjectHistory := do
  refuseIf object.isNil ⟨.invalidArgument, "the object identity is nil"⟩
  refuseIf (!objectExists registry.state object) ⟨.notFound, "the object is not registered"⟩
  let history := collectHistory registry.state object (min maxEvents registry.limits.maxHistoryEvents)
  pure ⟨object, history.1, history.2⟩

def queryPortsByState (registry : Registry) (state : PortAttachmentState)
    (policy : ValidationPolicy) : List PortView :=
  firstEntries registry.limits <|
    (registry.state.portRecords.toList.map fun entry =>
      derivePortView registry.state registry.limits entry.1 policy).filter (·.state == state)

/-! ### When a query is refused -/

theorem queryPort_cases (r : Registry) (port : PortRef) (policy : ValidationPolicy) :
    r.queryPort port policy =
      if port.endpoint.isNil then .error ⟨.invalidArgument, "the port names a nil endpoint"⟩
      else if !endpointExists r.state port.endpoint then
        .error ⟨.notFound, "the endpoint is not registered"⟩
      else if !portExists r.state port then
        .error ⟨.notFound, "the port index is outside the endpoint"⟩
      else .ok (derivePortView r.state r.limits port policy) := by
  unfold queryPort refuseIf
  generalize derivePortView r.state r.limits port policy = view
  split
  · rfl
  split
  · rfl
  split <;> rfl

theorem queryObject_cases (r : Registry) (object : ObjectId) (options : QueryOptions) :
    r.queryObject object options =
      if object.isNil then .error ⟨.invalidArgument, "the object identity is nil"⟩
      else if !objectExists r.state object then .error ⟨.notFound, "the object is not registered"⟩
      else .ok (deriveObjectView r.state r.limits object options) := by
  unfold queryObject refuseIf
  generalize deriveObjectView r.state r.limits object options = view
  split
  · rfl
  split <;> rfl

/-- A side of the answer is the view of that side. -/
theorem sides_queryObject {r : Registry} {object : ObjectId} {options : QueryOptions}
    {view : ObjectView} (h : r.queryObject object options = .ok view) {side : ObjectSideView}
    (hside : side ∈ view.sides) :
    side = deriveSideView r.state options.validationPolicy ⟨object, side.side⟩ := by
  rw [queryObject_cases] at h
  split at h
  · exact absurd h (by simp)
  split at h
  · exact absurd h (by simp)
  obtain rfl := Except.ok.inj h
  unfold deriveObjectView at hside
  split at hside
  · exact absurd hside (by simp)
  · dsimp only at hside
    split at hside
    · obtain ⟨reference, hreference, rfl⟩ := List.mem_map.mp hside
      obtain ⟨index, -, rfl⟩ := List.mem_map.mp hreference
      rfl
    · exact absurd hside (by simp)

theorem queryHistory_cases (r : Registry) (object : ObjectId) (maxEvents : UInt32) :
    r.queryHistory object maxEvents =
      if object.isNil then .error ⟨.invalidArgument, "the object identity is nil"⟩
      else if !objectExists r.state object then .error ⟨.notFound, "the object is not registered"⟩
      else .ok ⟨object,
        (collectHistory r.state object (min maxEvents r.limits.maxHistoryEvents)).1,
        (collectHistory r.state object (min maxEvents r.limits.maxHistoryEvents)).2⟩ := by
  unfold queryHistory refuseIf
  generalize collectHistory r.state object (min maxEvents r.limits.maxHistoryEvents) = history
  split
  · rfl
  split <;> rfl

end Registry

end CableRegistry
