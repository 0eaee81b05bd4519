import Maplang.Graph.InstanceForwarding
import Maplang.Graph.InstanceType

/-!
# Thread groups

Each instance is in a thread group, on whose loop the packets for its nodes are handled, and it has
a subgraph context, through which its implementation gets a loop for its own work.  Both are set
together, when the instance is made and when it is moved, and these are the only places.

A thread group is made when its name is first used, which may throw.  An instance is in the table
before the default group is made for it: if that throws, the instance stays without a context.

## Main definitions

* `PlacedGraph` and its functions, under their names in the code: instances, thread groups and the
  calls that configure them.
* `PlacedGraph.machine` : a graph and any calls of it.
* `PlacedGraph.AtHome`, `PlacedGraph.Homeless` : an instance whose context leads to the loop of its
  group, and one that has no context.
* `PlacedGraph.FailedFor` : the call that made an instance could not make its thread group.

## Main results

* `PlacedGraph.Placed.perform` : what a call keeps, also when it throws.
* `PlacedGraph.contexts_lead_home` : in every run, contexts lead to the loops of thread groups.
-/

namespace Maplang

/-- What other code does during a call of a graph. -/
structure PlacingEnvironment (ι π : Type) (MadeFor : ι → ByteString → Prop) extends
    Environment ι ℕ π MadeFor where
  /-- `asPathable()` is not null. -/
  isPathable : ι → Bool
  /-- `asGroup()` is not null. -/
  isGroup : ι → Bool
  getInterface : ι → ByteString → Option ι
  /-- `IUvLoopRunnerFactory::createUvLoopRunner`, for a loop runner by its number. -/
  createUvLoopRunner : ℕ → Code Unit
  /-- `uv_async_init` on the loop of a runner; if it fails, the text of its status. -/
  uvAsyncInit : ℕ → Option String

/-- `class Instance`, with the name of its thread group. -/
structure PlacedInstance (ι π : Type) where
  inst : RecordedInstance ι ℕ π := {}
  mThreadGroupName : ByteString := []

/-- `class DataGraphImpl`, with its instances and thread groups.  A thread group is known by its
loop runner, and so is the subgraph context that leads to its loop. -/
structure PlacedGraph (ι π : Type) where
  mNodes : List ArchitectureNode := []
  mThreadGroups : UnorderedMap ByteString ℕ := ∅
  mInstances : UnorderedMap ByteString (PlacedInstance ι π) := ∅
  /-- How many loop runners have been made. -/
  runners : ℕ := 0

namespace PlacedGraph

variable {ι π : Type} {MadeFor : ι → ByteString → Prop}

/-- `DataGraph::kDefaultThreadGroupName`. -/
def kDefaultThreadGroupName : ByteString := []

/-! ### The code -/

section

variable (env : PlacingEnvironment ι π MadeFor) (g : PlacedGraph ι π)

/-- Write to an instance through a pointer to it. -/
def write (instanceName : ByteString) (p : PlacedInstance ι π) : PlacedGraph ι π :=
  { g with mInstances := UnorderedMap.put g.mInstances instanceName p }

/-- `DataGraphImpl::getOrCreateThreadGroup`, with the constructor of `ThreadGroup`. -/
def getOrCreateThreadGroup (threadGroupName : ByteString) : Code ℕ × PlacedGraph ι π :=
  match g.mThreadGroups.lookup threadGroupName with
  | some runner => (.ok runner, g)
  | none =>
    match env.createUvLoopRunner g.runners with
    | .error fault => (.error fault, g)
    | .ok () =>
      let made := { g with runners := g.runners + 1 }
      match env.uvAsyncInit g.runners with
      | some status =>
        (throwRuntimeError ("Failed to initialize async event: " ++ status), made)
      | none => (.ok g.runners,
        { made with mThreadGroups := g.mThreadGroups.touch threadGroupName g.runners })

/-- `DataGraphImpl::setThreadGroupForInstance`, from where it has got the instance. -/
def place (p : PlacedInstance ι π) (instanceName threadGroupName : ByteString) :
    Logged (Given ι ℕ π) (PlacedInstance ι π) × PlacedGraph ι π :=
  match g.getOrCreateThreadGroup env threadGroupName with
  | (.error fault, g) => (.run (.error fault), g)
  | (.ok runner, g) =>
    let (given, inst) := p.inst.setSubgraphContext env.toEnvironment (some runner)
    let p := { inst, mThreadGroupName := threadGroupName }
    (⟨given.log, given.result.map fun _ => p⟩, g.write instanceName p)

/-- `DataGraphImpl::getOrCreateInstance`.  It is in the table before it is placed, so that
`setThreadGroupForInstance` finds it there. -/
def getOrCreateInstance (instanceName : ByteString) :
    Logged (Given ι ℕ π) (PlacedInstance ι π) × PlacedGraph ι π :=
  match g.mInstances.lookup instanceName with
  | some p => (pure p, g)
  | none => (g.write instanceName {}).place env {} instanceName kDefaultThreadGroupName

/-- Go on with an instance. -/
def withInstance (instanceName : ByteString)
    (f : PlacedInstance ι π → PlacedGraph ι π → Logged (Given ι ℕ π) Unit × PlacedGraph ι π) :
    Logged (Given ι ℕ π) Unit × PlacedGraph ι π :=
  let (got, g) := g.getOrCreateInstance env instanceName
  match got.result with
  | .error fault => (⟨got.log, .error fault⟩, g)
  | .ok p =>
    let (given, g) := f p g
    (⟨got.log ++ given.log, given.result⟩, g)

/-- Make a call of an instance. -/
def call (instanceName : ByteString) (p : PlacedInstance ι π)
    (given : Logged (Given ι ℕ π) Unit × RecordedInstance ι ℕ π) :
    Logged (Given ι ℕ π) Unit × PlacedGraph ι π :=
  (given.1, g.write instanceName { p with inst := given.2 })

/-- `DataGraphImpl::setThreadGroupForInstance`. -/
def setThreadGroupForInstance (instanceName threadGroupName : ByteString) :
    Logged (Given ι ℕ π) Unit × PlacedGraph ι π :=
  g.withInstance env instanceName fun p g =>
    let (placed, g) := g.place env p instanceName threadGroupName
    (⟨placed.log, placed.result.map fun _ => ()⟩, g)

/-- `DataGraph::setInstanceType`. -/
def setInstanceType (instanceName typeName : ByteString) :
    Logged (Given ι ℕ π) Unit × PlacedGraph ι π :=
  if typeName = [] then
    (.run (throwRuntimeError ("Cannot use empty typeName. Instance: '" ++ asText instanceName ++
      "'")), g)
  else
    g.withInstance env instanceName fun p g =>
      let (given, inst) := p.inst.setType env.toEnvironment typeName
      let g := g.write instanceName { p with inst }
      match given.result with
      -- what is caught is thrown again as a plain `std::exception`
      | .error (.exception _) => (⟨given.log, throwRuntimeError "std::exception"⟩, g)
      | .error fault => (⟨given.log, .error fault⟩, g)
      | .ok () => (⟨given.log, RecordedGraph.validateInstanceImplementation env.toEnvironment
          env.isPathable ⟨g.mNodes, ∅⟩ instanceName inst⟩, g)

/-- `DataGraph::setInstanceImplementation`. -/
def setInstanceImplementation (instanceName : ByteString) (implementation : Option ι) :
    Logged (Given ι ℕ π) Unit × PlacedGraph ι π :=
  g.withInstance env instanceName fun p g =>
    g.call instanceName p (p.inst.setImplementation env.toEnvironment implementation)

/-- `DataGraph::setInstanceInitParameters`. -/
def setInstanceInitParameters (instanceName : ByteString) (initParameters : Json) :
    Logged (Given ι ℕ π) Unit × PlacedGraph ι π :=
  if initParameters.isObject then
    g.withInstance env instanceName fun p g =>
      g.call instanceName p (pure (), p.inst.setInitParameters initParameters)
  else (.run (throwRuntimeError "initParameters must be an object."), g)

/-- `DataGraph::insertInstanceInitParameters`. -/
def insertInstanceInitParameters (instanceName : ByteString) (initParameters : Json) :
    Logged (Given ι ℕ π) Unit × PlacedGraph ι π :=
  if initParameters.isObject then
    g.withInstance env instanceName fun p g =>
      g.call instanceName p (p.inst.insertInitParameters initParameters)
  else (.run (throwRuntimeError "initParameters must be an object."), g)

/-- `DataGraph::setInstanceImplementationToGroupInterface`.  The implementation of the group is not
tested for null. -/
def setInstanceImplementationToGroupInterface
    (instanceName groupInstanceName groupInterfaceName : ByteString) :
    Logged (Given ι ℕ π) Unit × PlacedGraph ι π :=
  let attempt : String := "Error while attempting to set Instance '" ++ asText instanceName
  match g.mInstances.lookup groupInstanceName with
  | none =>
    (.run (throwRuntimeError ("Group Instance Name '" ++ asText groupInstanceName ++
      "' does not exist. " ++ attempt ++ "' implementation to the group's '" ++
      asText groupInterfaceName ++ "' interface.")), g)
  | some groupInstance =>
    match groupInstance.inst.mImplementation with
    | none => (.run (.error .undefinedBehaviour), g)
    | some group =>
      if env.isGroup group then
        match env.getInterface group groupInterfaceName with
        | none =>
          (.run (throwRuntimeError ("Group implementation for '" ++ asText groupInstanceName ++
            "' does not contain interface '" ++ asText groupInterfaceName ++ "'. " ++ attempt ++
            ".")), g)
        | some groupInterfaceNode =>
          g.setInstanceImplementation env instanceName (some groupInterfaceNode)
      else
        (.run (throwRuntimeError ("Implementation of '" ++ asText groupInstanceName ++
          "' is not a group. " ++ attempt ++ "' implementation to the group's '" ++
          asText groupInterfaceName ++ "' interface.")), g)

/-- `DataGraphImpl::getInstanceForGraphNode`. -/
def getInstanceForGraphNode (node : ArchitectureNode) : Code (PlacedInstance ι π) :=
  if node.instanceName = [] then
    throwRuntimeError ("No instance assigned to GraphNode '" ++ asText node.name ++ "'.")
  else
    match g.mInstances.lookup node.instanceName with
    | none => throwRuntimeError ("Instance '" ++ asText node.instanceName ++
        "' does not exist. Needed by GraphNode '" ++ asText node.name ++ "'.")
    | some p => .ok p

/-- The visitor of `DataGraph::startGraph`. -/
def startNode [DecidableEq π] (node : ArchitectureNode) (packetPusher : Option π) :
    Logged (Given ι ℕ π) Unit × PlacedGraph ι π :=
  match g.getInstanceForGraphNode node with
  | .error fault => (.run (.error fault), g)
  | .ok p =>
    let requires (connections : String) : String :=
      "Graph node '" ++ asText node.name ++ "' requires " ++ connections ++ ", but instance's '" ++
        asText node.instanceName ++ "' type '" ++ asText p.inst.mTypeName ++ "' is not an "
    match p.inst.mImplementation with
    | none =>
      (.run (throwRuntimeError ("Instance '" ++ asText node.instanceName ++
        "' was not implemented. Referenced by node '" ++ asText node.name ++ "'.")), g)
    | some implementation =>
      if node.allowsIncomingConnections && !env.isPathable implementation then
        (.run (throwRuntimeError (requires "inputs" ++ "IPathable.")), g)
      else if node.allowsOutgoingConnections && !env.isSource implementation &&
          !env.isPathable implementation then
        (.run (throwRuntimeError (requires "outputs" ++ "ISource or an IPathable.")), g)
      else
        g.call node.instanceName p
          (p.inst.setPacketPusherForISources env.toEnvironment packetPusher)

/-- What `DataGraph::sendPacket`, `pushPacket` and `packetReady` do to find the thread group of a
node they send to. -/
def threadGroupForNode (node : ArchitectureNode) : Code ℕ × PlacedGraph ι π :=
  match g.getInstanceForGraphNode node with
  | .error fault => (.error fault, g)
  | .ok p => g.getOrCreateThreadGroup env p.mThreadGroupName

end

/-! ### Runs -/

/-- A call of a graph, or what it does for one node. -/
inductive Configuring (ι π : Type) where
  /-- `createNode`, `setNodeInstance`: only the nodes change. -/
  | changeNodes (mNodes : List ArchitectureNode)
  | setThreadGroupForInstance (instanceName threadGroupName : ByteString)
  | setInstanceType (instanceName typeName : ByteString)
  | setInstanceImplementation (instanceName : ByteString) (implementation : Option ι)
  | setInstanceInitParameters (instanceName : ByteString) (initParameters : Json)
  | insertInstanceInitParameters (instanceName : ByteString) (initParameters : Json)
  | setInstanceImplementationToGroupInterface
      (instanceName groupInstanceName groupInterfaceName : ByteString)
  | startNode (node : ArchitectureNode) (packetPusher : Option π)
  | threadGroupForNode (node : ArchitectureNode)

/-- Make a call. -/
def perform [DecidableEq π] (env : PlacingEnvironment ι π MadeFor) (g : PlacedGraph ι π) :
    Configuring ι π → Logged (Given ι ℕ π) Unit × PlacedGraph ι π
  | .changeNodes mNodes => (pure (), { g with mNodes })
  | .setThreadGroupForInstance instanceName threadGroupName =>
    g.setThreadGroupForInstance env instanceName threadGroupName
  | .setInstanceType instanceName typeName => g.setInstanceType env instanceName typeName
  | .setInstanceImplementation instanceName implementation =>
    g.setInstanceImplementation env instanceName implementation
  | .setInstanceInitParameters instanceName initParameters =>
    g.setInstanceInitParameters env instanceName initParameters
  | .insertInstanceInitParameters instanceName initParameters =>
    g.insertInstanceInitParameters env instanceName initParameters
  | .setInstanceImplementationToGroupInterface instanceName groupInstanceName groupInterfaceName =>
    g.setInstanceImplementationToGroupInterface env instanceName groupInstanceName
      groupInterfaceName
  | .startNode node packetPusher => g.startNode env node packetPusher
  | .threadGroupForNode node =>
    let (runner, g) := g.threadGroupForNode env node
    (.run (runner.map fun _ => ()), g)

/-- One call after the other, whether they return or throw.  Other code may do something else
during each of them. -/
def machine (MadeFor : ι → ByteString → Prop) (π : Type) [DecidableEq π] :
    Machine (PlacedGraph ι π) (PlacingEnvironment ι π MadeFor × Configuring ι π) where
  step g call :=
    let (given, g) := g.perform call.1 call.2
    match given.result with
    | .ok () | .error (.exception _) => some g
    | .error _ => none

/-- The instance that a call moves. -/
def Configuring.Moves (call : Configuring ι π) (instanceName : ByteString) : Prop :=
  ∃ threadGroupName, call = .setThreadGroupForInstance instanceName threadGroupName

/-- The instance that a call gets, and makes if it is not there. -/
def Configuring.gotInstance : Configuring ι π → Option ByteString
  | .setThreadGroupForInstance instanceName _ | .setInstanceType instanceName _
  | .setInstanceImplementation instanceName _ | .setInstanceInitParameters instanceName _
  | .insertInstanceInitParameters instanceName _
  | .setInstanceImplementationToGroupInterface instanceName _ _ => some instanceName
  | .changeNodes _ | .startNode _ _ | .threadGroupForNode _ => none

/-- The instance is not there, and there is no thread group for it, nor can one be made. -/
structure Unplaceable (env : PlacingEnvironment ι π MadeFor) (g : PlacedGraph ι π)
    (instanceName : ByteString) : Prop where
  missing : g.mInstances.lookup instanceName = none
  error : ∃ fault, (g.getOrCreateThreadGroup env kDefaultThreadGroupName).1 = .error fault

/-- One of the calls has made the instance, and has failed to make its thread group. -/
def FailedFor [DecidableEq π] (calls : List (PlacingEnvironment ι π MadeFor × Configuring ι π))
    (instanceName : ByteString) : Prop :=
  ∃ before call after g, calls = before ++ call :: after ∧
    (machine MadeFor π).Run Machine.free {} before g ∧ call.2.gotInstance = some instanceName ∧
    g.Unplaceable call.1 instanceName

/-- The context of an instance leads to the loop of its thread group. -/
def AtHome (g : PlacedGraph ι π) (p : PlacedInstance ι π) : Prop :=
  ∃ runner, p.inst.mSubgraphContext = some runner ∧
    g.mThreadGroups.lookup p.mThreadGroupName = some runner

/-- An instance that has never been placed. -/
def Homeless (p : PlacedInstance ι π) : Prop :=
  p.inst.mSubgraphContext = none ∧ p.mThreadGroupName = kDefaultThreadGroupName

/-- The context is that of an instance with this implementation. -/
def Belongs (g : PlacedGraph ι π) (implementation : ι) (context : Option ℕ) : Prop :=
  ∃ instanceName p, g.mInstances.lookup instanceName = some p ∧
    p.inst.mImplementation = some implementation ∧ p.inst.mSubgraphContext = context

/-- Each thread group has its own loop. -/
structure Apart (g : PlacedGraph ι π) : Prop where
  made : ∀ name runner, g.mThreadGroups.lookup name = some runner → runner < g.runners
  injective : ∀ name name' runner, g.mThreadGroups.lookup name = some runner →
    g.mThreadGroups.lookup name' = some runner → name = name'

/-- Each instance is at home, or has never been placed, which needs a failure. -/
structure Placed (failed : ByteString → Prop) (g : PlacedGraph ι π) : Prop extends Apart g where
  home : g.mInstances.All fun instanceName p => g.AtHome p ∨ failed instanceName ∧ Homeless p

/-- Thread groups that are there stay. -/
def GroupsStay (g g' : PlacedGraph ι π) : Prop :=
  ∀ name runner, g.mThreadGroups.lookup name = some runner →
    g'.mThreadGroups.lookup name = some runner

/-- What calls leave as it was: the thread groups that there are, and where the instances are that
are not moved. -/
structure Later (moved : ByteString → Prop) (g g' : PlacedGraph ι π) : Prop where
  groups : GroupsStay g g'
  instances : ∀ instanceName p, g.mInstances.lookup instanceName = some p → ¬ moved instanceName →
    ∃ p', g'.mInstances.lookup instanceName = some p' ∧
      p'.mThreadGroupName = p.mThreadGroupName ∧
      p'.inst.mSubgraphContext = p.inst.mSubgraphContext

/-- What a call keeps: the invariant, what it may not change, and that implementations are only
given the context of an instance that has them. -/
structure Kept (failed : ByteString → Prop) (moved : ByteString → Prop) (g : PlacedGraph ι π)
    (done : Logged (Given ι ℕ π) Unit × PlacedGraph ι π) : Prop extends Later moved g done.2 where
  placed : done.2.Placed failed
  given : ∀ i context, .context i context ∈ done.1.log → done.2.Belongs i context

variable {env : PlacingEnvironment ι π MadeFor} {g g' g'' : PlacedGraph ι π}
  {failed moved : ByteString → Prop} {p p' : PlacedInstance ι π}
  {instanceName threadGroupName : ByteString}

theorem Later.refl (moved : ByteString → Prop) (g : PlacedGraph ι π) : Later moved g g :=
  ⟨fun _ _ h => h, fun _ p h _ => ⟨p, h, rfl, rfl⟩⟩

theorem Later.trans (h : Later moved g g') (h' : Later moved g' g'') : Later moved g g'' := by
  refine ⟨fun name runner hrunner => h'.groups name runner (h.groups name runner hrunner),
    fun instanceName p hp hmoved => ?_⟩
  obtain ⟨p', hp', hname, hcontext⟩ := h.instances instanceName p hp hmoved
  obtain ⟨p'', hp'', hname', hcontext'⟩ := h'.instances instanceName p' hp' hmoved
  exact ⟨p'', hp'', hname'.trans hname, hcontext'.trans hcontext⟩

theorem lookup_write (g : PlacedGraph ι π) (instanceName : ByteString) (p : PlacedInstance ι π)
    (other : ByteString) : (g.write instanceName p).mInstances.lookup other =
      if other = instanceName then some p else g.mInstances.lookup other :=
  UnorderedMap.lookup_put _ _ _ _

theorem AtHome.of_groups (h : g.AtHome p) (hgroups : GroupsStay g g') : g'.AtHome p := by
  obtain ⟨runner, hcontext, hrunner⟩ := h
  exact ⟨runner, hcontext, hgroups _ _ hrunner⟩

/-- An instance that is where it was is as much at home. -/
theorem home_of_same (h : g.AtHome p ∨ failed instanceName ∧ Homeless p)
    (hname : p'.mThreadGroupName = p.mThreadGroupName)
    (hcontext : p'.inst.mSubgraphContext = p.inst.mSubgraphContext) :
    g.AtHome p' ∨ failed instanceName ∧ Homeless p' := by
  rw [AtHome, Homeless, hname, hcontext]
  exact h

/-! ### Thread groups -/

/-- The thread group is there, or is made on a new loop, or a failure leaves the table as it is. -/
theorem getOrCreateThreadGroup_cases (env : PlacingEnvironment ι π MadeFor) (g : PlacedGraph ι π)
    (threadGroupName : ByteString) :
    (∃ runner, g.mThreadGroups.lookup threadGroupName = some runner ∧
      g.getOrCreateThreadGroup env threadGroupName = (.ok runner, g)) ∨
    (g.mThreadGroups.lookup threadGroupName = none ∧
      g.getOrCreateThreadGroup env threadGroupName = (.ok g.runners,
        { g with
          runners := g.runners + 1
          mThreadGroups := g.mThreadGroups.touch threadGroupName g.runners })) ∨
    (∃ fault runners, g.runners ≤ runners ∧
      g.getOrCreateThreadGroup env threadGroupName = (.error fault, { g with runners })) := by
  rw [getOrCreateThreadGroup]
  cases hlookup : g.mThreadGroups.lookup threadGroupName with
  | some runner => exact .inl ⟨runner, rfl, rfl⟩
  | none =>
    refine .inr ?_
    cases hrunner : env.createUvLoopRunner g.runners with
    | error fault => exact .inr ⟨fault, g.runners, le_rfl, rfl⟩
    | ok =>
      cases hasync : env.uvAsyncInit g.runners with
      | some status => exact .inr ⟨_, g.runners + 1, Nat.le_succ _, rfl⟩
      | none => exact .inl ⟨rfl, rfl⟩

/-- What getting a thread group returns does not depend on the instances. -/
theorem getOrCreateThreadGroup_write (env : PlacingEnvironment ι π MadeFor) (g : PlacedGraph ι π)
    (instanceName threadGroupName : ByteString) (p : PlacedInstance ι π) :
    ((g.write instanceName p).getOrCreateThreadGroup env threadGroupName).1 =
      (g.getOrCreateThreadGroup env threadGroupName).1 := by
  unfold getOrCreateThreadGroup write
  dsimp only
  cases g.mThreadGroups.lookup threadGroupName with
  | some runner => rfl
  | none =>
    cases env.createUvLoopRunner g.runners with
    | error fault => rfl
    | ok => cases env.uvAsyncInit g.runners <;> rfl

/-- What getting a thread group leaves, also when it fails. -/
structure GroupGot (g : PlacedGraph ι π) (threadGroupName : ByteString)
    (done : Code ℕ × PlacedGraph ι π) : Prop where
  apart : done.2.Apart
  groups : GroupsStay g done.2
  mInstances : done.2.mInstances = g.mInstances
  ok : ∀ runner, done.1 = .ok runner →
    done.2.mThreadGroups.lookup threadGroupName = some runner

theorem Apart.getOrCreateThreadGroup (h : g.Apart) (env : PlacingEnvironment ι π MadeFor)
    (threadGroupName : ByteString) :
    GroupGot g threadGroupName (g.getOrCreateThreadGroup env threadGroupName) := by
  rcases getOrCreateThreadGroup_cases env g threadGroupName with ⟨runner, hlookup, hgot⟩ |
    ⟨hlookup, hgot⟩ | ⟨fault, runners, hle, hgot⟩
  · rw [hgot]
    exact ⟨h, fun _ _ hrunner => hrunner, rfl, fun _ hok => Except.ok.inj hok ▸ hlookup⟩
  · rw [hgot]
    have htouch : ∀ name runner,
        (g.mThreadGroups.touch threadGroupName g.runners).lookup name = some runner ↔
          name = threadGroupName ∧ runner = g.runners ∨
            g.mThreadGroups.lookup name = some runner := by
      intro name runner
      rw [UnorderedMap.lookup_touch, hlookup]
      by_cases hname : name = threadGroupName
      · rw [if_pos hname, hname, hlookup, Option.getD_none, Option.some.injEq]
        simp [eq_comm]
      · simp [hname]
    refine ⟨⟨?_, ?_⟩, fun name runner hrunner => (htouch name runner).2 (.inr hrunner), rfl, ?_⟩
    · intro name runner hrunner
      rcases (htouch name runner).1 hrunner with ⟨-, rfl⟩ | hrunner
      · exact Nat.lt_succ_self _
      · exact Nat.lt_succ_of_lt (h.made name runner hrunner)
    · intro name name' runner hrunner hrunner'
      rcases (htouch name runner).1 hrunner with ⟨hname, heq⟩ | hold <;>
        rcases (htouch name' runner).1 hrunner' with ⟨hname', heq'⟩ | hold'
      · exact hname.trans hname'.symm
      · exact absurd (heq ▸ h.made name' runner hold') (Nat.lt_irrefl _)
      · exact absurd (heq' ▸ h.made name runner hold) (Nat.lt_irrefl _)
      · exact h.injective name name' runner hold hold'
    · intro runner hok
      obtain rfl := Except.ok.inj hok
      exact (htouch _ _).2 (.inl ⟨rfl, rfl⟩)
  · rw [hgot]
    exact ⟨⟨fun name runner hrunner => (h.made name runner hrunner).trans_le hle, h.injective⟩,
      fun _ _ hrunner => hrunner, rfl, fun _ hok => (by cases hok)⟩

/-! ### Placing an instance -/

theorem setSubgraphContext_eq (env : Environment ι ℕ π MadeFor) (inst : RecordedInstance ι ℕ π)
    (subgraphContext : Option ℕ) :
    (inst.setSubgraphContext env subgraphContext).2 =
        { inst with mSubgraphContext := subgraphContext } ∧
      ∀ given ∈ (inst.setSubgraphContext env subgraphContext).1.log, ∃ i,
        inst.mImplementation = some i ∧ given = .context i subgraphContext := by
  rcases Option.eq_none_or_eq_some inst.mImplementation with hnone | ⟨i, hi⟩
  · rw [GivingInstance.setSubgraphContext_of_none hnone]
    exact ⟨rfl, fun _ h => absurd h List.not_mem_nil⟩
  · rw [GivingInstance.setSubgraphContext_of_some hi]
    exact ⟨rfl, fun given h => ⟨i, hi, List.mem_singleton.1 h⟩⟩

/-- What placing an instance leaves, also when it fails. -/
inductive PlaceDone (env : PlacingEnvironment ι π MadeFor) (g : PlacedGraph ι π)
    (p : PlacedInstance ι π) (instanceName threadGroupName : ByteString) :
    Logged (Given ι ℕ π) (PlacedInstance ι π) × PlacedGraph ι π → Prop
  /-- There is no thread group, and the instance stays where it is. -/
  | failed {g' : PlacedGraph ι π} {fault : Fault}
      (hfails : (g.getOrCreateThreadGroup env threadGroupName).1 = .error fault)
      (happart : g'.Apart) (hgroups : GroupsStay g g')
      (hinstances : g'.mInstances = g.mInstances) :
      PlaceDone env g p instanceName threadGroupName (.run (.error fault), g')
  | placed {g' : PlacedGraph ι π} {p' : PlacedInstance ι π} {log : List (Given ι ℕ π)}
      {code : Code Unit} (happart : g'.Apart)
      (hgroups : GroupsStay g g')
      (hinstances : g'.mInstances = g.mInstances) (hname : p'.mThreadGroupName = threadGroupName)
      (himplementation : p'.inst.mImplementation = p.inst.mImplementation)
      (hhome : g'.AtHome p') (hgiven : ∀ given ∈ log, ∃ i,
        p'.inst.mImplementation = some i ∧ given = .context i p'.inst.mSubgraphContext) :
      PlaceDone env g p instanceName threadGroupName
        (⟨log, code.map fun _ => p'⟩, g'.write instanceName p')

theorem Apart.place (h : g.Apart) (env : PlacingEnvironment ι π MadeFor)
    (p : PlacedInstance ι π) (instanceName threadGroupName : ByteString) :
    PlaceDone env g p instanceName threadGroupName
      (g.place env p instanceName threadGroupName) := by
  have hdone := h.getOrCreateThreadGroup env threadGroupName
  rw [PlacedGraph.place]
  cases hgot : g.getOrCreateThreadGroup env threadGroupName with
  | mk code g' =>
    rw [hgot] at hdone
    cases code with
    | error fault =>
      exact .failed (by rw [hgot]) hdone.apart hdone.groups hdone.mInstances
    | ok runner =>
      obtain ⟨hinst, hlog⟩ := setSubgraphContext_eq env.toEnvironment p.inst (some runner)
      have himplementation := congrArg RecordedInstance.mImplementation hinst
      have hcontext := congrArg RecordedInstance.mSubgraphContext hinst
      refine .placed hdone.apart hdone.groups hdone.mInstances rfl himplementation
        ⟨runner, hcontext, hdone.ok runner rfl⟩ fun given hgiven => ?_
      obtain ⟨i, hi, rfl⟩ := hlog given hgiven
      exact ⟨i, himplementation.trans hi, congrArg (Given.context i) hcontext.symm⟩

/-- Only the instance that is placed changes. -/
theorem Placed.write (h : g.Placed failed) (happart : g'.Apart)
    (hgroups : GroupsStay g g')
    (hinstances : ∀ other, other ≠ instanceName →
      g'.mInstances.lookup other = g.mInstances.lookup other)
    (hhome : ∀ p, g'.mInstances.lookup instanceName = some p →
      g'.AtHome p ∨ failed instanceName ∧ Homeless p) : g'.Placed failed := by
  refine ⟨happart, fun other p hp => ?_⟩
  by_cases hother : other = instanceName
  · exact hother ▸ hhome p (hother ▸ hp)
  · exact (h.home other p ((hinstances other hother).symm.trans hp)).imp_left
      fun hat => hat.of_groups hgroups

/-- An instance that is got is in the table, and is where it was. -/
structure InstanceGot (failed moved : ByteString → Prop) (g : PlacedGraph ι π)
    (instanceName : ByteString)
    (done : Logged (Given ι ℕ π) (PlacedInstance ι π) × PlacedGraph ι π) : Prop extends
    Later moved g done.2 where
  placed : done.2.Placed failed
  log : done.1.log = []
  ok : ∀ p, done.1.result = .ok p → done.2.mInstances.lookup instanceName = some p

theorem Placed.getOrCreateInstance (h : g.Placed failed)
    (hfails : g.Unplaceable env instanceName → failed instanceName) (moved : ByteString → Prop) :
    InstanceGot failed moved g instanceName (g.getOrCreateInstance env instanceName) := by
  rw [PlacedGraph.getOrCreateInstance]
  cases hlookup : g.mInstances.lookup instanceName with
  | some p => exact ⟨.refl moved g, h, rfl, fun p' hp' => Except.ok.inj hp' ▸ hlookup⟩
  | none =>
    have hlater : ∀ g' : PlacedGraph ι π, GroupsStay g g' →
        (∀ other, other ≠ instanceName →
          g'.mInstances.lookup other = g.mInstances.lookup other) → Later moved g g' := by
      intro g' hgroups hinstances
      refine ⟨hgroups, fun other p hp _ => ⟨p, ?_, rfl, rfl⟩⟩
      rwa [hinstances other fun heq => by cases (heq ▸ hp).symm.trans hlookup]
    have hdone := Apart.place (g := g.write instanceName {}) ⟨h.made, h.injective⟩ env {}
      instanceName kDefaultThreadGroupName
    generalize (g.write instanceName {}).place env {} instanceName kDefaultThreadGroupName = done
      at hdone ⊢
    cases hdone with
    | @failed g' fault hnot happart hgroups hinstances =>
      have hothers : ∀ other, other ≠ instanceName →
          g'.mInstances.lookup other = g.mInstances.lookup other := fun other hother => by
        rw [hinstances, lookup_write, if_neg hother]
      refine ⟨hlater g' hgroups hothers, h.write happart hgroups hothers fun p hp => ?_, rfl,
        fun _ hp => by cases hp⟩
      rw [hinstances, lookup_write, if_pos rfl] at hp
      obtain rfl := Option.some.inj hp
      rw [getOrCreateThreadGroup_write] at hnot
      exact .inr ⟨hfails ⟨hlookup, fault, hnot⟩, rfl, rfl⟩
    | @placed g' p' log code happart hgroups hinstances hname himplementation hhome hgiven =>
      have hothers : ∀ other, other ≠ instanceName →
          (g'.write instanceName p').mInstances.lookup other = g.mInstances.lookup other :=
        fun other hother => by
          rw [lookup_write, if_neg hother, hinstances, lookup_write, if_neg hother]
      have hlog : log = [] := List.eq_nil_iff_forall_not_mem.2 fun given hmem => by
        obtain ⟨i, hi, -⟩ := hgiven given hmem
        cases himplementation.symm.trans hi
      refine ⟨hlater _ hgroups hothers, h.write ⟨happart.made, happart.injective⟩ hgroups hothers
        fun p hp => ?_, hlog, fun p hp => ?_⟩
      · rw [lookup_write, if_pos rfl] at hp
        obtain rfl := Option.some.inj hp
        exact .inl hhome
      · cases code with
        | error fault => cases hp
        | ok => rw [lookup_write, if_pos rfl, show p' = p from Except.ok.inj hp]

/-! ### Calls of instances -/

/-- A call of an instance that leaves its context, and gives it to its implementation only. -/
structure Steady (inst : RecordedInstance ι ℕ π)
    (done : Logged (Given ι ℕ π) Unit × RecordedInstance ι ℕ π) : Prop where
  mSubgraphContext : done.2.mSubgraphContext = inst.mSubgraphContext
  given : ∀ i context, .context i context ∈ done.1.log →
    done.2.mImplementation = some i ∧ inst.mSubgraphContext = context

open RecordedInstance (givePusher)

section

variable (env : Environment ι ℕ π MadeFor) (inst : RecordedInstance ι ℕ π)

theorem not_mem_givePusher (i j : ι) (context : Option ℕ) (packetPusher : Option π) :
    .context i context ∉ (givePusher env j packetPusher).log := by
  rw [GivingInstance.log_givePusher]
  cases packetPusher with
  | none => exact List.not_mem_nil
  | some packetPusher =>
    rw [GivingInstance.pusherEntry]
    split
    · intro h
      cases List.mem_singleton.1 h
    · exact List.not_mem_nil

/-- A call that gives no context. -/
theorem steady_of_not_mem {done : Logged (Given ι ℕ π) Unit × RecordedInstance ι ℕ π}
    (hcontext : done.2.mSubgraphContext = inst.mSubgraphContext)
    (hlog : ∀ i context, .context i context ∉ done.1.log) : Steady inst done :=
  ⟨hcontext, fun i context h => absurd h (hlog i context)⟩

theorem steady_setType (typeName : ByteString) : Steady inst (inst.setType env typeName) := by
  have hempty : ∀ i context, (.context i context : Given ι ℕ π) ∉ [] := fun _ _ =>
    List.not_mem_nil
  by_cases hsame : inst.mTypeName = typeName
  · rw [RecordedInstance.setType_same hsame]
    exact steady_of_not_mem inst rfl hempty
  by_cases hname : typeName = []
  · rw [RecordedInstance.setType, if_neg hsame, if_pos hname]
    exact steady_of_not_mem inst rfl hempty
  cases hcreate : env.createImplementation typeName inst.mInitParameters with
  | error fault =>
    rw [RecordedGraph.setType_not_created hsame hname hcreate]
    exact steady_of_not_mem inst rfl hempty
  | ok created =>
    cases created with
    | none =>
      rw [RecordedInstance.setType, if_neg hsame]
      simp only [if_neg hname, hcreate]
      exact steady_of_not_mem inst rfl hempty
    | some j =>
      obtain ⟨hlog, hok, herror⟩ := RecordedGraph.setType_created hsame hname hcreate
      refine steady_of_not_mem inst ?_ fun i context => ?_
      · cases hgiven : (givePusher env j (inst.lockPusher env)).result with
        | error fault => rw [herror fault hgiven]
        | ok => rw [hok hgiven]
      · rw [hlog]
        exact not_mem_givePusher env i j context _

theorem steady_setImplementation (implementation : Option ι) :
    Steady inst (inst.setImplementation env implementation) := by
  cases implementation with
  | none => exact steady_of_not_mem inst rfl fun _ _ => List.not_mem_nil
  | some j =>
    refine ⟨rfl, fun i context h => ?_⟩
    rcases Logged.mem_log_bind h with hcontext | ⟨-, -, hpusher⟩
    · cases List.mem_singleton.1 hcontext
      exact ⟨rfl, rfl⟩
    · exact absurd hpusher (not_mem_givePusher env i j context _)

theorem steady_insertInitParameters (initParameters : Json) :
    Steady inst (inst.insertInitParameters initParameters) := by
  rw [RecordedInstance.insertInitParameters]
  split
  · exact steady_of_not_mem inst rfl fun _ _ => List.not_mem_nil
  · split <;> exact steady_of_not_mem inst rfl fun _ _ => List.not_mem_nil

theorem steady_setPacketPusherForISources [DecidableEq π] (packetPusher : Option π) :
    Steady inst (inst.setPacketPusherForISources env packetPusher) := by
  rw [RecordedInstance.setPacketPusherForISources]
  simp only
  split
  · exact steady_of_not_mem inst rfl fun _ _ => List.not_mem_nil
  · split
    · exact steady_of_not_mem inst rfl fun _ _ => List.not_mem_nil
    · exact steady_of_not_mem inst rfl fun i context => not_mem_givePusher env i _ context _

end

/-! ### Calls of graphs -/

/-- A call that throws before it changes anything. -/
theorem Placed.kept_run (h : g.Placed failed) (moved : ByteString → Prop) (code : Code Unit) :
    Kept failed moved g (.run code, g) :=
  ⟨.refl moved g, h, fun _ _ hgiven => absurd hgiven List.not_mem_nil⟩

/-- What a call returns does not matter. -/
theorem Kept.with_result {log : List (Given ι ℕ π)} {code : Code Unit}
    (h : Kept failed moved g (⟨log, code⟩, g')) (code' : Code Unit) :
    Kept failed moved g (⟨log, code'⟩, g') :=
  ⟨h.toLater, h.placed, h.given⟩

theorem Placed.kept_call (h : g.Placed failed) (moved : ByteString → Prop)
    (hlookup : g.mInstances.lookup instanceName = some p)
    {done : Logged (Given ι ℕ π) Unit × RecordedInstance ι ℕ π} (hdone : Steady p.inst done) :
    Kept failed moved g (g.call instanceName p done) := by
  have hself : (g.write instanceName { p with inst := done.2 }).mInstances.lookup instanceName =
      some { p with inst := done.2 } := (lookup_write _ _ _ _).trans (if_pos rfl)
  have hothers : ∀ other, other ≠ instanceName →
      (g.write instanceName { p with inst := done.2 }).mInstances.lookup other =
        g.mInstances.lookup other := fun other hother => by rw [lookup_write, if_neg hother]
  refine ⟨⟨fun _ _ hrunner => hrunner, fun other q hq _ => ?_⟩,
    h.write ⟨h.made, h.injective⟩ (fun _ _ hrunner => hrunner) hothers fun q hq => ?_,
    fun i context hgiven => ?_⟩
  · by_cases hother : other = instanceName
    · subst hother
      obtain rfl := Option.some.inj (hlookup.symm.trans hq)
      exact ⟨_, hself, rfl, hdone.mSubgraphContext⟩
    · exact ⟨q, (hothers other hother).trans hq, rfl, rfl⟩
  · obtain rfl := Option.some.inj (hself.symm.trans hq)
    exact home_of_same (h.home instanceName p hlookup) rfl hdone.mSubgraphContext
  · obtain ⟨hi, hcontext⟩ := hdone.given i context hgiven
    exact ⟨instanceName, _, hself, hi, hdone.mSubgraphContext.trans hcontext⟩

/-- **Going on with an instance** keeps what the rest of the call keeps. -/
theorem Placed.kept_withInstance (h : g.Placed failed)
    (hfails : g.Unplaceable env instanceName → failed instanceName)
    {f : PlacedInstance ι π → PlacedGraph ι π → Logged (Given ι ℕ π) Unit × PlacedGraph ι π}
    (hf : ∀ p g', g'.Placed failed → g'.mInstances.lookup instanceName = some p →
      Kept failed moved g' (f p g')) :
    Kept failed moved g (g.withInstance env instanceName f) := by
  have hgot := h.getOrCreateInstance hfails moved
  rw [withInstance]
  cases hdone : g.getOrCreateInstance env instanceName with
  | mk got g' =>
    rw [hdone] at hgot
    obtain ⟨log, code⟩ := got
    obtain rfl : log = [] := hgot.log
    cases code with
    | error fault => exact ⟨hgot.toLater, hgot.placed, fun _ _ hmem => absurd hmem List.not_mem_nil⟩
    | ok p =>
      have hkept := hf p g' hgot.placed (hgot.ok p rfl)
      exact ⟨hgot.toLater.trans hkept.toLater, hkept.placed, hkept.given⟩

/-- The instance that is placed may have been moved, the others are where they were. -/
theorem Placed.kept_place (h : g.Placed failed) (hmoved : moved instanceName)
    (p : PlacedInstance ι π) (threadGroupName : ByteString) :
    Kept failed moved g
      (⟨(g.place env p instanceName threadGroupName).1.log,
        (g.place env p instanceName threadGroupName).1.result.map fun _ => ()⟩,
        (g.place env p instanceName threadGroupName).2) := by
  have hdone := h.toApart.place env p instanceName threadGroupName
  generalize g.place env p instanceName threadGroupName = done at hdone ⊢
  cases hdone with
  | @failed g' fault hnot happart hgroups hinstances =>
    refine ⟨⟨hgroups, fun other q hq _ => ⟨q, ?_, rfl, rfl⟩⟩, ⟨happart, fun other q hq => ?_⟩,
      fun _ _ hmem => absurd hmem List.not_mem_nil⟩
    · rwa [hinstances]
    · rw [hinstances] at hq
      exact (h.home other q hq).imp_left fun hat => hat.of_groups hgroups
  | @placed g' p' log code happart hgroups hinstances hname himplementation hhome hgiven =>
    have hself : (g'.write instanceName p').mInstances.lookup instanceName = some p' :=
      (lookup_write _ _ _ _).trans (if_pos rfl)
    have hothers : ∀ other, other ≠ instanceName →
        (g'.write instanceName p').mInstances.lookup other = g.mInstances.lookup other :=
      fun other hother => by rw [lookup_write, if_neg hother, hinstances]
    refine ⟨⟨hgroups, fun other q hq hnot => ⟨q, ?_, rfl, rfl⟩⟩,
      h.write ⟨happart.made, happart.injective⟩ hgroups hothers fun q hq => .inl ?_,
      fun i context hmem => ?_⟩
    · exact (hothers other fun heq => hnot (heq ▸ hmoved)).trans hq
    · obtain rfl := Option.some.inj (hself.symm.trans hq)
      exact hhome
    · obtain ⟨j, hj, hentry⟩ := hgiven _ hmem
      cases hentry
      exact ⟨instanceName, p', hself, hj, rfl⟩

/-- An instance that has been placed is in the thread group. -/
theorem Apart.place_ok (h : g.Apart)
    (hok : (g.place env p instanceName threadGroupName).1.result = .ok p') :
    (g.place env p instanceName threadGroupName).2.mInstances.lookup instanceName = some p' ∧
      p'.mThreadGroupName = threadGroupName ∧
      (g.place env p instanceName threadGroupName).2.AtHome p' := by
  have hdone := h.place env p instanceName threadGroupName
  generalize g.place env p instanceName threadGroupName = done at hdone hok ⊢
  cases hdone with
  | failed => cases hok
  | @placed g' q log code happart hgroups hinstances hname himplementation hhome hgiven =>
    cases code with
    | error fault => cases hok
    | ok =>
      obtain rfl : q = p' := Except.ok.inj hok
      exact ⟨(lookup_write _ _ _ _).trans (if_pos rfl), hname, hhome⟩

theorem Placed.kept_setThreadGroupForInstance (h : g.Placed failed)
    (hfails : g.Unplaceable env instanceName → failed instanceName)
    (hmoved : moved instanceName) (threadGroupName : ByteString) :
    Kept failed moved g (g.setThreadGroupForInstance env instanceName threadGroupName) :=
  h.kept_withInstance hfails fun p _ h' _ => h'.kept_place hmoved p threadGroupName

theorem Placed.kept_setInstanceType (h : g.Placed failed)
    (hfails : g.Unplaceable env instanceName → failed instanceName)
    (typeName : ByteString) :
    Kept failed moved g (g.setInstanceType env instanceName typeName) := by
  rw [setInstanceType]
  split
  · exact h.kept_run moved _
  · refine h.kept_withInstance hfails fun p g' h' hlookup => ?_
    have hkept := h'.kept_call moved hlookup (steady_setType env.toEnvironment p.inst typeName)
    simp only
    split <;> exact hkept.with_result _

theorem Placed.kept_setInstanceImplementation (h : g.Placed failed)
    (hfails : g.Unplaceable env instanceName → failed instanceName)
    (implementation : Option ι) :
    Kept failed moved g (g.setInstanceImplementation env instanceName implementation) :=
  h.kept_withInstance hfails fun p _ h' hlookup =>
    h'.kept_call moved hlookup (steady_setImplementation env.toEnvironment p.inst implementation)

theorem Placed.kept_setInstanceInitParameters (h : g.Placed failed)
    (hfails : g.Unplaceable env instanceName → failed instanceName)
    (initParameters : Json) :
    Kept failed moved g (g.setInstanceInitParameters env instanceName initParameters) := by
  rw [setInstanceInitParameters]
  split
  · exact h.kept_withInstance hfails fun p _ h' hlookup => h'.kept_call moved hlookup
      (steady_of_not_mem p.inst rfl fun _ _ => List.not_mem_nil)
  · exact h.kept_run moved _

theorem Placed.kept_insertInstanceInitParameters (h : g.Placed failed)
    (hfails : g.Unplaceable env instanceName → failed instanceName) (initParameters : Json) :
    Kept failed moved g (g.insertInstanceInitParameters env instanceName initParameters) := by
  rw [insertInstanceInitParameters]
  split
  · exact h.kept_withInstance hfails fun p _ h' hlookup => h'.kept_call moved hlookup
      (steady_insertInitParameters p.inst initParameters)
  · exact h.kept_run moved _

theorem Placed.kept_setInstanceImplementationToGroupInterface (h : g.Placed failed)
    (hfails : g.Unplaceable env instanceName → failed instanceName)
    (groupInstanceName groupInterfaceName : ByteString) :
    Kept failed moved g (g.setInstanceImplementationToGroupInterface env instanceName
      groupInstanceName groupInterfaceName) := by
  rw [setInstanceImplementationToGroupInterface]
  split
  · exact h.kept_run moved _
  · split
    · exact h.kept_run moved _
    · split
      · split
        · exact h.kept_run moved _
        · exact h.kept_setInstanceImplementation hfails _
      · exact h.kept_run moved _

theorem getInstanceForGraphNode_ok {node : ArchitectureNode}
    (h : g.getInstanceForGraphNode node = .ok p) :
    g.mInstances.lookup node.instanceName = some p := by
  rw [getInstanceForGraphNode] at h
  split at h
  · cases h
  · cases hlookup : g.mInstances.lookup node.instanceName with
    | none =>
      rw [hlookup] at h
      cases h
    | some q =>
      rw [hlookup] at h
      exact congrArg some (Except.ok.inj h)

theorem Placed.kept_startNode [DecidableEq π] (h : g.Placed failed) (node : ArchitectureNode)
    (packetPusher : Option π) : Kept failed moved g (g.startNode env node packetPusher) := by
  rw [startNode]
  cases hgot : g.getInstanceForGraphNode node with
  | error fault => exact h.kept_run moved _
  | ok p =>
    simp only
    split
    · exact h.kept_run moved _
    · split
      · exact h.kept_run moved _
      · split
        · exact h.kept_run moved _
        · exact h.kept_call moved (getInstanceForGraphNode_ok hgot)
            (steady_setPacketPusherForISources env.toEnvironment p.inst packetPusher)

theorem Placed.kept_threadGroupForNode (h : g.Placed failed) (node : ArchitectureNode) :
    Kept failed moved g
      (.run ((g.threadGroupForNode env node).1.map fun _ => ()),
        (g.threadGroupForNode env node).2) := by
  rw [threadGroupForNode]
  cases g.getInstanceForGraphNode node with
  | error fault => exact h.kept_run moved _
  | ok p =>
    have hdone := h.toApart.getOrCreateThreadGroup env p.mThreadGroupName
    refine ⟨⟨hdone.groups, fun other q hq _ => ⟨q, ?_, rfl, rfl⟩⟩,
      ⟨hdone.apart, fun other q hq => ?_⟩, fun _ _ hmem => absurd hmem List.not_mem_nil⟩
    · rwa [hdone.mInstances]
    · rw [hdone.mInstances] at hq
      exact (h.home other q hq).imp_left fun hat => hat.of_groups hdone.groups

/-- **Each call** keeps the invariant, also when it throws. -/
theorem Placed.perform [DecidableEq π] (h : g.Placed failed) (call : Configuring ι π)
    (hfails : ∀ instanceName, call.gotInstance = some instanceName →
      g.Unplaceable env instanceName → failed instanceName) :
    Kept failed call.Moves g (g.perform env call) := by
  cases call with
  | changeNodes mNodes =>
    exact ⟨⟨fun _ _ hrunner => hrunner, fun _ q hq _ => ⟨q, hq, rfl, rfl⟩⟩,
      ⟨⟨h.made, h.injective⟩, h.home⟩, fun _ _ hmem => absurd hmem List.not_mem_nil⟩
  | setThreadGroupForInstance instanceName threadGroupName =>
    exact h.kept_setThreadGroupForInstance (hfails _ rfl) ⟨threadGroupName, rfl⟩ threadGroupName
  | setInstanceType instanceName typeName => exact h.kept_setInstanceType (hfails _ rfl) typeName
  | setInstanceImplementation instanceName implementation =>
    exact h.kept_setInstanceImplementation (hfails _ rfl) implementation
  | setInstanceInitParameters instanceName initParameters =>
    exact h.kept_setInstanceInitParameters (hfails _ rfl) initParameters
  | insertInstanceInitParameters instanceName initParameters =>
    exact h.kept_insertInstanceInitParameters (hfails _ rfl) initParameters
  | setInstanceImplementationToGroupInterface instanceName groupInstanceName groupInterfaceName =>
    exact h.kept_setInstanceImplementationToGroupInterface (hfails _ rfl) groupInstanceName
      groupInterfaceName
  | startNode node packetPusher => exact h.kept_startNode node packetPusher
  | threadGroupForNode node => exact h.kept_threadGroupForNode node

/-- A call of `setThreadGroupForInstance` that returns has moved the instance. -/
theorem Placed.setThreadGroupForInstance_ok (h : g.Placed failed)
    (hfails : g.Unplaceable env instanceName → failed instanceName)
    (hok : (g.setThreadGroupForInstance env instanceName threadGroupName).1.result = .ok ()) :
    ∃ p, (g.setThreadGroupForInstance env instanceName threadGroupName).2.mInstances.lookup
        instanceName = some p ∧ p.mThreadGroupName = threadGroupName ∧
      (g.setThreadGroupForInstance env instanceName threadGroupName).2.AtHome p := by
  have hgot := h.getOrCreateInstance hfails fun _ => True
  rw [setThreadGroupForInstance, withInstance] at hok ⊢
  generalize g.getOrCreateInstance env instanceName = done at hgot hok ⊢
  obtain ⟨⟨log, code⟩, g'⟩ := done
  cases code with
  | error fault => cases hok
  | ok p =>
    change (g'.place env p instanceName threadGroupName).1.result.map (fun _ => ()) = .ok () at hok
    cases hcode : (g'.place env p instanceName threadGroupName).1.result with
    | error fault =>
      rw [hcode] at hok
      cases hok
    | ok p' => exact ⟨p', hgot.placed.toApart.place_ok hcode⟩

/-! ### Runs of calls -/

theorem Placed.mono {failed' : ByteString → Prop} (h : g.Placed failed)
    (himp : ∀ instanceName, failed instanceName → failed' instanceName) : g.Placed failed' :=
  ⟨h.toApart, h.home.mono fun _ _ => Or.imp_right (And.imp_left (himp _))⟩

theorem placed_empty (failed : ByteString → Prop) : ({} : PlacedGraph ι π).Placed failed :=
  ⟨⟨fun _ _ h => (by cases h), fun _ _ _ h => (by cases h)⟩, UnorderedMap.all_empty⟩

variable [DecidableEq π]

theorem step_eq_some {call : PlacingEnvironment ι π MadeFor × Configuring ι π}
    (h : (machine MadeFor π).step g call = some g') : g' = (g.perform call.1 call.2).2 := by
  simp only [machine] at h
  split at h <;> simp_all

/-- What has failed stays so. -/
theorem FailedFor.append {calls : List (PlacingEnvironment ι π MadeFor × Configuring ι π)}
    (h : FailedFor calls instanceName)
    (more : List (PlacingEnvironment ι π MadeFor × Configuring ι π)) :
    FailedFor (calls ++ more) instanceName := by
  obtain ⟨before, call, after, g, rfl, hfailed⟩ := h
  exact ⟨before, call, after ++ more, g, by rw [List.append_assoc, List.cons_append], hfailed⟩

/-- The call that has just been made has failed. -/
theorem failedFor_concat {calls : List (PlacingEnvironment ι π MadeFor × Configuring ι π)}
    (hrun : (machine MadeFor π).Run Machine.free {} calls g)
    {call : PlacingEnvironment ι π MadeFor × Configuring ι π}
    (hgets : call.2.gotInstance = some instanceName)
    (h : g.Unplaceable call.1 instanceName) : FailedFor (calls ++ [call]) instanceName :=
  ⟨calls, call, [], g, rfl, hrun, hgets, h⟩

/-- **The invariant holds in every run**, and only a failure leaves an instance without a home. -/
theorem placed_of_run {calls : List (PlacingEnvironment ι π MadeFor × Configuring ι π)}
    (hrun : (machine MadeFor π).Run Machine.free {} calls g) : g.Placed (FailedFor calls) := by
  induction hrun with
  | nil => exact placed_empty _
  | @snoc g' g'' calls call hrun _ hstep ih =>
    rw [step_eq_some hstep]
    exact ((ih.mono fun _ hfailed => hfailed.append [call]).perform call.2
      fun _ => failedFor_concat hrun).placed

/-- **Contexts lead home**: after every run of calls, whatever throws in between, no two thread
groups have the same loop, and each instance has the context of its thread group, unless the call
that made it could not make its thread group, and it has no context yet.  The next call, also if it
throws, keeps this, the loop of each thread group, and the place of each instance it does not move;
if it moves one and returns, the instance is in the named thread group; and implementations are
given only the context of an instance that has them. -/
theorem contexts_lead_home {calls : List (PlacingEnvironment ι π MadeFor × Configuring ι π)}
    (hrun : (machine MadeFor π).Run Machine.free {} calls g) :
    g.Placed (FailedFor calls) ∧
      ∀ (env : PlacingEnvironment ι π MadeFor) (call : Configuring ι π),
        Kept (FailedFor (calls ++ [(env, call)])) call.Moves g (g.perform env call) ∧
        ∀ instanceName threadGroupName,
          call = .setThreadGroupForInstance instanceName threadGroupName →
          (g.perform env call).1.result = .ok () →
          ∃ p, (g.perform env call).2.mInstances.lookup instanceName = some p ∧
            p.mThreadGroupName = threadGroupName ∧ (g.perform env call).2.AtHome p := by
  have hplaced := placed_of_run hrun
  refine ⟨hplaced, fun env call => ?_⟩
  have hbefore : g.Placed (FailedFor (calls ++ [(env, call)])) :=
    hplaced.mono fun _ hfailed => hfailed.append _
  have hfails : ∀ instanceName, call.gotInstance = some instanceName →
      g.Unplaceable env instanceName → FailedFor (calls ++ [(env, call)]) instanceName :=
    fun _ hgets hunplaceable => failedFor_concat hrun hgets hunplaceable
  refine ⟨hbefore.perform call hfails, ?_⟩
  rintro instanceName threadGroupName rfl hok
  exact hbefore.setThreadGroupForInstance_ok (hfails instanceName rfl) hok

/-- One kind of implementation; whether loop runners are made can be chosen. -/
def loopsIf (made : Bool) : PlacingEnvironment Unit Unit fun _ _ => True where
  createImplementation _ _ := .ok (some ())
  madeFor := fun _ => trivial
  isSource _ := true
  setSubgraphContext _ _ := .ok ()
  setPacketPusher _ _ := .ok ()
  alive _ := true
  isPathable _ := true
  isGroup _ := false
  getInterface _ _ := none
  createUvLoopRunner _ := if made then .ok () else throwRuntimeError "Error initializing UV loop."
  uvAsyncInit _ := none

/-- An instance is made while there are no loops, is implemented without one, and is moved. -/
def movedLate : List (PlacingEnvironment Unit Unit (fun _ _ => True) × Configuring Unit Unit) :=
  [(loopsIf false, .setInstanceType (bytes "a") (bytes "T")),
    (loopsIf true, .setInstanceType (bytes "a") (bytes "T")),
    (loopsIf true, .setThreadGroupForInstance (bytes "a") (bytes "io"))]

theorem contexts_lead_home_movedLate :
    ((machine (fun _ _ => True) Unit).exec (fun _ _ => true) {} movedLate).isSome = true ∧
      (((machine (fun _ _ => True) Unit).exec (fun _ _ => true) {} movedLate).getD {}).Placed
        (FailedFor movedLate) := by
  have hsome : ((machine (fun _ _ => True) Unit).exec (fun _ _ => true) {} movedLate).isSome =
      true := by decide
  exact ⟨hsome, (contexts_lead_home ((Machine.run_exec hsome).mono fun _ _ _ => trivial)).1⟩

end PlacedGraph

end Maplang
