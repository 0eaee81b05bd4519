import Maplang.Cpp.UnorderedMap
import Maplang.Json.Basic
import Mathlib.Logic.Function.Basic

/-!
# Implementing a graph

`implementDataGraph` goes through the members of a JSON object in the order of their names.  Each
member gives an instance the type it is created from, or the interface of a group, and may give
interfaces of the instance to other instances.

Implementations are objects: two that are created from one type need not be the same, so a factory
is told the instance that it creates an implementation for.  An interface that becomes the
implementation of an instance is given the subgraph context of the instance, and may refuse it: the
interfaces of a TCP group take one event loop only between them.

## Main definitions

* `Implementations` : the implementations, as the code sees them.
* `TypedInstance`, `ImplementedGraph` : what implementing a graph reads and changes.
* `implementInstance`, `implementDataGraph` : the code.
* `taken` : the contexts that the interfaces of a member are given.

## Main results

* `implementInstance_typed` : what a member with a type does.
-/

namespace Maplang

/-- `ImplementationFactory`, and implementations seen through `asSource()`, `asPathable()` and
`asGroup()`. -/
structure Implementations (ι κ : Type) where
  /-- For an instance, from a type and init parameters.  The code leaves the instance out: a new
  object is made each time. -/
  createImplementation : ByteString → ByteString → Json → Code ι
  isSource : ι → Bool
  isPathable : ι → Bool
  isGroup : ι → Bool
  /-- `IGroup::getInterface`, `none` for null. -/
  getInterface : ι → ByteString → Option ι
  /-- `IImplementation::setSubgraphContext`.  It may depend on the contexts that implementations
  have been given before. -/
  setSubgraphContext : List (ι × Option κ) → ι → Option κ → Code Unit

/-- `class Instance`, with what implementing a graph reads and changes. -/
structure TypedInstance (ι κ : Type) where
  mTypeName : ByteString := []
  mImplementation : Option ι := none
  mInitParameters : Json := .null
  mSubgraphContext : Option κ := none

variable {ι κ : Type} (F : Implementations ι κ)

namespace TypedInstance

variable (inst : TypedInstance ι κ)

/-- `Instance::setType`. -/
def setType (instanceName typeName : ByteString) : Code (TypedInstance ι κ) :=
  if inst.mTypeName = typeName then .ok inst
  else if typeName = [] then .ok { inst with mImplementation := none }
  else do
    let implementation ← F.createImplementation instanceName typeName inst.mInitParameters
    return { inst with mImplementation := some implementation, mTypeName := typeName }

/-- `Instance::setImplementation`, after the contexts that implementations have been given. -/
def setImplementation (given : List (ι × Option κ)) (implementation : ι) :
    Code (TypedInstance ι κ) := do
  F.setSubgraphContext given implementation inst.mSubgraphContext
  return { inst with mImplementation := some implementation }

/-- `Instance::insertInitParameters`. -/
def insertInitParameters (initParameters : Json) : Code (TypedInstance ι κ) := do
  let mInitParameters ←
    if inst.mInitParameters.isNull then pure initParameters
    else inst.mInitParameters.insert initParameters
  return { inst with mInitParameters }

end TypedInstance

/-- `struct GraphNode`, with what an implementation is tested for. -/
structure ArchitectureNode where
  name : ByteString
  instanceName : ByteString
  allowsIncomingConnections : Bool
  allowsOutgoingConnections : Bool

/-- `class DataGraphImpl`: the nodes, in the order they are visited, and the instances. -/
structure ImplementedGraph (ι κ : Type) where
  mNodes : List ArchitectureNode
  mInstances : UnorderedMap ByteString (TypedInstance ι κ)
  /-- The context of the thread group `kDefaultThreadGroupName`. -/
  defaultSubgraphContext : κ
  /-- The contexts that implementations have been given. -/
  given : List (ι × Option κ) := []

namespace ImplementedGraph

variable (g : ImplementedGraph ι κ)

/-- `mInstances[instanceName] = inst`. -/
def write (instanceName : ByteString) (inst : TypedInstance ι κ) : ImplementedGraph ι κ :=
  { g with mInstances := UnorderedMap.put g.mInstances instanceName inst }

/-- A new instance, in the default thread group. -/
def newInstance : TypedInstance ι κ := { mSubgraphContext := some g.defaultSubgraphContext }

/-- `DataGraphImpl::getOrCreateInstance`. -/
def getOrCreateInstance (instanceName : ByteString) :
    TypedInstance ι κ × ImplementedGraph ι κ :=
  match g.mInstances.lookup instanceName with
  | some inst => (inst, g)
  | none => (g.newInstance, g.write instanceName g.newInstance)

/-- `DataGraph::insertInstanceInitParameters`. -/
def insertInstanceInitParameters (instanceName : ByteString) (initParameters : Json) :
    Code (ImplementedGraph ι κ) :=
  if initParameters.isObject then do
    let (inst, g) := g.getOrCreateInstance instanceName
    let inst ← inst.insertInitParameters initParameters
    return g.write instanceName inst
  else throwRuntimeError "initParameters must be an object."

/-- The visitor of `validateInstanceImplementation`. -/
def validateNode (instanceName mTypeName : ByteString) (implementation : ι)
    (node : ArchitectureNode) : Code Unit :=
  let requires (connections : String) : String :=
    "GraphNode '" ++ asText node.name ++ "' requires the instance to support " ++ connections ++
      " connections, but Instance '" ++ asText instanceName ++ "' " ++
      if mTypeName = [] then "(with a manually set implementation) "
      else "with type '" ++ asText mTypeName ++ "' "
  if node.instanceName ≠ instanceName then .ok ()
  else if node.allowsIncomingConnections && !F.isPathable implementation then
    throwRuntimeError (requires "incoming" ++ "is not an IPathable.")
  else if node.allowsOutgoingConnections && !F.isPathable implementation &&
      !F.isSource implementation then
    throwRuntimeError (requires "outgoing" ++ "is not an IPathable or an ISource.")
  else .ok ()

/-- `DataGraphImpl::validateInstanceImplementation`. -/
def validateInstanceImplementation (instanceName : ByteString) (inst : TypedInstance ι κ) :
    Code Unit :=
  match inst.mImplementation with
  | none => .error .undefinedBehaviour
  | some implementation => g.mNodes.forM (validateNode F instanceName inst.mTypeName implementation)

/-- `DataGraph::setInstanceType`.  What is caught is thrown again as a plain `std::exception`. -/
def setInstanceType (instanceName typeName : ByteString) : Code (ImplementedGraph ι κ) :=
  if typeName = [] then
    throwRuntimeError ("Cannot use empty typeName. Instance: '" ++ asText instanceName ++ "'")
  else
    let (inst, g) := g.getOrCreateInstance instanceName
    match inst.setType F instanceName typeName with
    | .ok inst => do
      g.validateInstanceImplementation F instanceName inst
      return g.write instanceName inst
    | .error (.exception _) => throwRuntimeError "std::exception"
    | .error fault => .error fault

/-- `DataGraph::setInstanceImplementationToGroupInterface`.  The implementation of the group is not
tested for null. -/
def setInstanceImplementationToGroupInterface
    (instanceName groupInstanceName groupInterfaceName : ByteString) :
    Code (ImplementedGraph ι κ) :=
  let attempt : String := "Error while attempting to set Instance '" ++ asText instanceName
  match g.mInstances.lookup groupInstanceName with
  | none =>
    throwRuntimeError ("Group Instance Name '" ++ asText groupInstanceName ++
      "' does not exist. " ++ attempt ++ "' implementation to the group's '" ++
      asText groupInterfaceName ++ "' interface.")
  | some groupInstance =>
    match groupInstance.mImplementation with
    | none => .error .undefinedBehaviour
    | some group =>
      if F.isGroup group then
        match F.getInterface group groupInterfaceName with
        | none =>
          throwRuntimeError ("Group implementation for '" ++ asText groupInstanceName ++
            "' does not contain interface '" ++ asText groupInterfaceName ++ "'. " ++ attempt ++
            ".")
        | some groupInterfaceNode =>
          let (inst, g) := g.getOrCreateInstance instanceName
          (inst.setImplementation F g.given groupInterfaceNode).map fun implemented =>
            { g.write instanceName implemented with
              given := g.given ++ [(groupInterfaceNode, inst.mSubgraphContext)] }
      else
        throwRuntimeError ("Implementation of '" ++ asText groupInstanceName ++
          "' is not a group. " ++ attempt ++ "' implementation to the group's '" ++
          asText groupInterfaceName ++ "' interface.")

end ImplementedGraph

/-! ### The implementation file -/

namespace GraphBuilder

/-- `getJson`. -/
def getJson (containingObject : Json) (containingKey : String) (key : ByteString) : Code Json :=
  match containingObject.find key with
  | some value => .ok value
  | none => throwRuntimeError ("'" ++ asText key ++ "' is missing in '" ++ containingKey ++ "'")

/-- `getNonEmptyStringOrThrow`. -/
def getNonEmptyStringOrThrow (containingObject : Json) (containingKey : String)
    (key : ByteString) : Code ByteString := do
  match ← getJson containingObject containingKey key with
  | .string stringValue =>
    if stringValue = [] then
      throwRuntimeError ("'" ++ asText key ++ "' cannot be an empty string in '" ++
        containingKey ++ "'")
    else return stringValue
  | value =>
    throwRuntimeError ("'" ++ asText key ++ "' must be a string in '" ++ containingKey ++
      "'. Actual type: " ++ value.typeName)

/-- `getObjectOrThrow`, for its members. -/
def getObjectOrThrow (containingObject : Json) (containingKey : String) (key : ByteString) :
    Code (List (ByteString × Json)) := do
  match ← getJson containingObject containingKey key with
  | .object members => return members
  | value =>
    throwRuntimeError ("'" ++ asText key ++ "' must be an object in '" ++ containingKey ++
      "'. Actual type: " ++ value.typeName)

/-- The first step of the loop of `implementDataGraph`. -/
def insertInitParameters (g : ImplementedGraph ι κ) (instanceName : ByteString)
    (instanceImplementation : Json) : Code (ImplementedGraph ι κ) :=
  match instanceImplementation.find (bytes "initParameters") with
  | none => .ok g
  | some initParameters =>
    if initParameters.isObject then g.insertInstanceInitParameters instanceName initParameters
    else
      throwRuntimeError ("initParameters must be an object for instance '" ++
        asText instanceName ++ "'")

/-- The second step. -/
def setImplementation (g : ImplementedGraph ι κ) (instanceName : ByteString)
    (instanceImplementation : Json) : Code (ImplementedGraph ι κ) :=
  if (instanceImplementation.find (bytes "type")).isSome then do
    let implementingType ←
      getNonEmptyStringOrThrow instanceImplementation (asText instanceName) (bytes "type")
    g.setInstanceType F instanceName implementingType
  else if (instanceImplementation.find (bytes "implementationFromGroup")).isSome then do
    let implementationFromGroup ← getObjectOrThrow instanceImplementation (asText instanceName)
      (bytes "implementationFromGroup")
    let groupInstance ← getNonEmptyStringOrThrow (.object implementationFromGroup)
      (asText instanceName ++ ".implementationFromGroup") (bytes "groupInstance")
    let groupInterface ← getNonEmptyStringOrThrow (.object implementationFromGroup)
      (asText instanceName ++ ".implementationFromGroup") (bytes "groupInterface")
    g.setInstanceImplementationToGroupInterface F instanceName groupInstance groupInterface
  else
    throwRuntimeError ("Instance '" ++ asText instanceName ++
      "' must contain either 'type' or 'implementationFromGroup'")

/-- A round of the loop of the third step. -/
def mapInterface (instanceName : ByteString) (instanceToInterfaceMap : List (ByteString × Json))
    (g : ImplementedGraph ι κ) (interfaceInstanceName : ByteString) :
    Code (ImplementedGraph ι κ) := do
  let interfaceImplementation ← getObjectOrThrow (.object instanceToInterfaceMap)
    (asText instanceName ++ ".instanceToInterfaceMap") interfaceInstanceName
  let nameOfGroupInterface ← getNonEmptyStringOrThrow (.object interfaceImplementation)
    (asText instanceName ++ ".instanceToInterfaceMap." ++ asText interfaceInstanceName)
    (bytes "interface")
  g.setInstanceImplementationToGroupInterface F interfaceInstanceName instanceName
    nameOfGroupInterface

/-- The third step. -/
def mapInterfaces (g : ImplementedGraph ι κ) (instanceName : ByteString)
    (instanceImplementation : Json) : Code (ImplementedGraph ι κ) :=
  if (instanceImplementation.find (bytes "instanceToInterfaceMap")).isSome then do
    let instanceToInterfaceMap ← getObjectOrThrow instanceImplementation (asText instanceName)
      (bytes "instanceToInterfaceMap")
    (instanceToInterfaceMap.map Prod.fst).foldlM
      (mapInterface F instanceName instanceToInterfaceMap) g
  else .ok g

/-- A round of the loop of `implementDataGraph`. -/
def implementInstance (g : ImplementedGraph ι κ) (member : ByteString × Json) :
    Code (ImplementedGraph ι κ) := do
  let (instanceName, instanceImplementation) := member
  let g ← insertInitParameters g instanceName instanceImplementation
  let g ← setImplementation F g instanceName instanceImplementation
  mapInterfaces F g instanceName instanceImplementation

/-- `implementDataGraph`, for JSON that has been parsed. -/
def implementDataGraph (g : ImplementedGraph ι κ) (implementation : Json) :
    Code (ImplementedGraph ι κ) :=
  match implementation with
  | .object members => members.foldlM (implementInstance F) g
  | value =>
    throwRuntimeError ("Root object in implementation JSON must be an object. Actual type: " ++
      value.typeName)

end GraphBuilder

/-! ### The instances -/

namespace ImplementedGraph

variable {F} {g : ImplementedGraph ι κ} {instanceName typeName : ByteString}

/-- An instance, as it is created when there is none. -/
def instanceOf (g : ImplementedGraph ι κ) (instanceName : ByteString) : TypedInstance ι κ :=
  (g.mInstances.lookup instanceName).getD g.newInstance

/-- The implementation an instance has. -/
def implementationOf (g : ImplementedGraph ι κ) (instanceName : ByteString) : Option ι :=
  (g.instanceOf instanceName).mImplementation

/-- The subgraph context an instance has. -/
def contextOf (g : ImplementedGraph ι κ) (instanceName : ByteString) : Option κ :=
  (g.instanceOf instanceName).mSubgraphContext

@[simp] theorem mNodes_write (g : ImplementedGraph ι κ) (instanceName : ByteString)
    (inst : TypedInstance ι κ) : (g.write instanceName inst).mNodes = g.mNodes := rfl

@[simp] theorem instanceOf_write (g : ImplementedGraph ι κ) (instanceName : ByteString)
    (inst : TypedInstance ι κ) :
    (g.write instanceName inst).instanceOf = Function.update g.instanceOf instanceName inst := by
  funext n
  rw [instanceOf, write, UnorderedMap.lookup_put]
  by_cases hn : n = instanceName
  · rw [if_pos hn, hn, Function.update_self]
    rfl
  · rw [if_neg hn, Function.update_of_ne hn]
    rfl

theorem getOrCreateInstance_spec (g : ImplementedGraph ι κ) (instanceName : ByteString) :
    ∃ g' : ImplementedGraph ι κ,
      g.getOrCreateInstance instanceName = (g.instanceOf instanceName, g') ∧
      g'.mNodes = g.mNodes ∧ g'.given = g.given ∧ g'.instanceOf = g.instanceOf := by
  rw [getOrCreateInstance]
  cases hlookup : g.mInstances.lookup instanceName with
  | some inst => exact ⟨g, by rw [instanceOf, hlookup]; rfl, rfl, rfl, rfl⟩
  | none =>
    have hnew : g.instanceOf instanceName = g.newInstance := by rw [instanceOf, hlookup]; rfl
    refine ⟨g.write instanceName g.newInstance, by rw [hnew], rfl, rfl, ?_⟩
    rw [instanceOf_write, ← hnew, Function.update_eq_self]

/-- The node's connections are possible with the implementation. -/
structure Serves (F : Implementations ι κ) (implementation : ι) (node : ArchitectureNode) :
    Prop where
  incoming : node.allowsIncomingConnections = true → F.isPathable implementation = true
  outgoing : node.allowsOutgoingConnections = true →
    F.isPathable implementation = true ∨ F.isSource implementation = true

theorem validateNode_ok {implementation : ι} {node : ArchitectureNode} (mTypeName : ByteString)
    (h : node.instanceName = instanceName → Serves F implementation node) :
    validateNode F instanceName mTypeName implementation node = .ok () := by
  rw [validateNode]
  by_cases hname : node.instanceName = instanceName
  · obtain ⟨hincoming, houtgoing⟩ := h hname
    rw [if_neg (not_not.2 hname), if_neg, if_neg]
    · intro hnot
      simp only [Bool.and_eq_true, Bool.not_eq_true'] at hnot
      rcases houtgoing hnot.1.1 with hyes | hyes
      · exact Bool.false_ne_true (hnot.1.2.symm.trans hyes)
      · exact Bool.false_ne_true (hnot.2.symm.trans hyes)
    · intro hnot
      simp only [Bool.and_eq_true, Bool.not_eq_true'] at hnot
      exact Bool.false_ne_true (hnot.2.symm.trans (hincoming hnot.1))
  · rw [if_pos hname]

theorem forM_ok {α : Type} {f : α → Code Unit} {l : List α} (h : ∀ a ∈ l, f a = .ok ()) :
    l.forM f = .ok () := by
  induction l with
  | nil => rfl
  | cons a l ih =>
    obtain ⟨ha, hl⟩ := List.forall_mem_cons.1 h
    rw [List.forM, ha]
    exact ih hl

/-- A type can be set when its constructor succeeds, and it serves the nodes. -/
theorem setInstanceType_ok {implementation : ι} (htypeName : typeName ≠ [])
    (hnew : (g.instanceOf instanceName).mTypeName = [])
    (hcreate : F.createImplementation instanceName typeName
      (g.instanceOf instanceName).mInitParameters = .ok implementation)
    (hserves : ∀ node ∈ g.mNodes, node.instanceName = instanceName → Serves F implementation node) :
    ∃ g', g.setInstanceType F instanceName typeName = .ok g' ∧ g'.mNodes = g.mNodes ∧
      g'.given = g.given ∧ g'.instanceOf = Function.update g.instanceOf instanceName
        { g.instanceOf instanceName with
          mTypeName := typeName, mImplementation := some implementation } := by
  obtain ⟨g', hget, hnodes, hgiven, hinstances⟩ := getOrCreateInstance_spec g instanceName
  have hset : (g.instanceOf instanceName).setType F instanceName typeName =
      .ok { g.instanceOf instanceName with
        mTypeName := typeName, mImplementation := some implementation } := by
    rw [TypedInstance.setType, hnew, if_neg (Ne.symm htypeName), if_neg htypeName, hcreate]
    rfl
  have hvalid : g'.mNodes.forM (validateNode F instanceName typeName implementation) = .ok () :=
    forM_ok fun node hnode => validateNode_ok typeName (hserves node (hnodes ▸ hnode))
  refine ⟨g'.write instanceName { g.instanceOf instanceName with
    mTypeName := typeName, mImplementation := some implementation }, ?_, hnodes, hgiven, ?_⟩
  · rw [setInstanceType, if_neg htypeName, hget]
    simp only [hset, validateInstanceImplementation, hvalid, bind, Except.bind, pure, Except.pure]
  · rw [instanceOf_write, hinstances]

/-- An interface can be set when the group is implemented, and has it, and it takes the context of
the instance. -/
theorem setInstanceImplementationToGroupInterface_eq
    {groupInstanceName groupInterfaceName : ByteString} {group implementation : ι}
    (himplemented : g.implementationOf groupInstanceName = some group)
    (hgroup : F.isGroup group = true)
    (hinterface : F.getInterface group groupInterfaceName = some implementation) :
    ∃ g', g.setInstanceImplementationToGroupInterface F instanceName groupInstanceName
        groupInterfaceName =
          (F.setSubgraphContext g.given implementation (g.contextOf instanceName)).map
            (fun _ => g') ∧
      g'.mNodes = g.mNodes ∧
      g'.given = g.given ++ [(implementation, g.contextOf instanceName)] ∧
      g'.instanceOf = Function.update g.instanceOf instanceName
        { g.instanceOf instanceName with mImplementation := some implementation } := by
  obtain ⟨g', hget, hnodes, hgiven, hinstances⟩ := getOrCreateInstance_spec g instanceName
  rw [implementationOf, instanceOf] at himplemented
  cases hlookup : g.mInstances.lookup groupInstanceName with
  | none =>
    rw [hlookup] at himplemented
    cases himplemented
  | some groupInstance =>
    rw [hlookup, Option.getD_some] at himplemented
    refine ⟨{ g'.write instanceName
        { g.instanceOf instanceName with mImplementation := some implementation } with
        given := g'.given ++ [(implementation, g.contextOf instanceName)] },
      ?_, hnodes, by rw [hgiven], ?_⟩
    · simp only [setInstanceImplementationToGroupInterface, hlookup, himplemented, hgroup, if_true,
        hinterface, hget, TypedInstance.setImplementation, hgiven, contextOf]
      cases F.setSubgraphContext g.given implementation
        (g.instanceOf instanceName).mSubgraphContext <;> rfl
    · exact (instanceOf_write g' instanceName _).trans (by rw [hinstances])

end ImplementedGraph

/-! ### Taking contexts -/

/-- Implementations are given contexts one after the other. -/
def Implementations.takeAll : List (ι × Option κ) → List (ι × Option κ) → Code Unit
  | _, [] => .ok ()
  | given, taking :: more => do
    F.setSubgraphContext given taking.1 taking.2
    Implementations.takeAll (given ++ [taking]) more

theorem takeAll_singleton (given : List (ι × Option κ)) (taking : ι × Option κ) :
    F.takeAll given [taking] = F.setSubgraphContext given taking.1 taking.2 := by
  rw [Implementations.takeAll]
  cases F.setSubgraphContext given taking.1 taking.2 <;> rfl

theorem takeAll_append (given more rest : List (ι × Option κ)) :
    F.takeAll given (more ++ rest) =
      (F.takeAll given more).bind fun _ => F.takeAll (given ++ more) rest := by
  induction more generalizing given with
  | nil =>
    rw [List.append_nil]
    rfl
  | cons taking more ih =>
    rw [List.cons_append, Implementations.takeAll, Implementations.takeAll, ih, List.append_assoc]
    cases F.setSubgraphContext given taking.1 taking.2 <;> rfl

/-- No implementation refuses a context. -/
theorem takeAll_ok (h : ∀ given implementation context,
    F.setSubgraphContext given implementation context = .ok ()) (given more : List (ι × Option κ)) :
    F.takeAll given more = .ok () := by
  induction more generalizing given with
  | nil => rfl
  | cons taking more ih =>
    rw [Implementations.takeAll, h]
    exact ih _

/-- Code that succeeds if the contexts are taken. -/
theorem takeAll_bind {α β : Type} {given more rest : List (ι × Option κ)} {run : Code α}
    {next : α → Code β} {a : α} {b : β} (hrun : run = (F.takeAll given more).map fun _ => a)
    (hnext : next a = (F.takeAll (given ++ more) rest).map fun _ => b) :
    run.bind next = (F.takeAll given (more ++ rest)).map fun _ => b := by
  rw [hrun, takeAll_append]
  cases F.takeAll given more with
  | error fault => rfl
  | ok u => exact hnext

theorem eq_of_takeAll {α : Type} {given more : List (ι × Option κ)} {a b : α}
    (h : (F.takeAll given more).map (fun _ => a) = .ok b) :
    F.takeAll given more = .ok () ∧ a = b := by
  cases htaken : F.takeAll given more with
  | error fault =>
    rw [htaken] at h
    cases h
  | ok u =>
    rw [htaken] at h
    exact ⟨rfl, Except.ok.inj h⟩

/-- The contexts that go with the interfaces that some instances are given. -/
def handed (interface : ByteString → Option ι) (contextOf : ByteString → Option κ)
    (keys : List ByteString) : List (ι × Option κ) :=
  keys.filterMap fun x => (interface x).map (·, contextOf x)

theorem handed_append (interface : ByteString → Option ι) (contextOf : ByteString → Option κ)
    (keys keys' : List ByteString) : handed interface contextOf (keys ++ keys') =
      handed interface contextOf keys ++ handed interface contextOf keys' :=
  List.filterMap_append

/-- A graph before and after some of its instances have been given interfaces. -/
structure Mapped (g g' : ImplementedGraph ι κ) (keys : List ByteString)
    (interface : ByteString → Option ι) : Prop where
  mNodes : g'.mNodes = g.mNodes
  given : g'.given = g.given ++ handed interface g.contextOf keys
  instanceOf : ∀ x, g'.instanceOf x = if x ∈ keys then
    { g.instanceOf x with mImplementation := interface x } else g.instanceOf x

namespace Mapped

variable {F} {g g₁ g' : ImplementedGraph ι κ} {keys keys' : List ByteString}
  {interface : ByteString → Option ι}

theorem contextOf (h : Mapped g g' keys interface) : g'.contextOf = g.contextOf := by
  funext x
  rw [ImplementedGraph.contextOf, h.instanceOf]
  split_ifs <;> rfl

theorem implementationOf (h : Mapped g g' keys interface) (x : ByteString) :
    g'.implementationOf x = if x ∈ keys then interface x else g.implementationOf x := by
  rw [ImplementedGraph.implementationOf, h.instanceOf]
  split_ifs <;> rfl

theorem nil (g : ImplementedGraph ι κ) (interface : ByteString → Option ι) :
    Mapped g g [] interface :=
  ⟨rfl, (List.append_nil _).symm, fun _ => (if_neg List.not_mem_nil).symm⟩

theorem append (h : Mapped g g₁ keys interface) (h' : Mapped g₁ g' keys' interface) :
    Mapped g g' (keys ++ keys') interface where
  mNodes := h'.mNodes.trans h.mNodes
  given := by rw [h'.given, h.given, h.contextOf, handed_append, List.append_assoc]
  instanceOf x := by
    rw [h'.instanceOf, h.instanceOf]
    simp only [List.mem_append]
    by_cases hx : x ∈ keys
    · simp only [hx, if_true, true_or]
      split_ifs <;> rfl
    · simp only [hx, if_false, false_or]

/-- More instances are given interfaces, if the contexts of the first ones are taken. -/
theorem bind (h : Mapped g g₁ keys interface) {run : Code (ImplementedGraph ι κ)}
    {next : ImplementedGraph ι κ → Code (ImplementedGraph ι κ)}
    (hrun : run = (F.takeAll g.given (handed interface g.contextOf keys)).map fun _ => g₁)
    (hnext : next g₁ =
      (F.takeAll g₁.given (handed interface g₁.contextOf keys')).map fun _ => g') :
    run.bind next =
      (F.takeAll g.given (handed interface g.contextOf (keys ++ keys'))).map fun _ => g' := by
  rw [handed_append]
  refine takeAll_bind F hrun ?_
  rw [hnext, h.given, h.contextOf]

end Mapped

/-! ### A member of the implementation file -/

namespace GraphBuilder

variable {F} {g : ImplementedGraph ι κ} {instanceName : ByteString} {entry : Json}

/-- The init parameters an instance has after the first step. -/
def parametersWith (entry old : Json) : Code Json :=
  match entry.find (bytes "initParameters") with
  | none => .ok old
  | some initParameters => if old.isNull then .ok initParameters else old.insert initParameters

/-- The members of `instanceToInterfaceMap`. -/
def interfaceMap (entry : Json) : List (ByteString × Json) :=
  match entry.find (bytes "instanceToInterfaceMap") with
  | some (.object members) => members
  | _ => []

/-- The interface of a group that is mapped to an instance. -/
def mappedInterface (F : Implementations ι κ) (group : ι) (entry : Json) (x : ByteString) :
    Option ι :=
  ((interfaceMap entry).lookup x).bind fun interfaceImplementation =>
    F.getInterface group (interfaceImplementation.stringAt (bytes "interface"))

/-- The group has the interface that is mapped to an instance. -/
structure HasInterface (F : Implementations ι κ) (group : ι) (entry : Json) (x : ByteString) :
    Prop where
  isGroup : F.isGroup group = true
  named : ∃ j name, (interfaceMap entry).lookup x = some j ∧ name ≠ [] ∧
    j.find (bytes "interface") = some (.string name) ∧ (F.getInterface group name).isSome = true

/-- The instances that are mapped are given interfaces that the group has. -/
structure MapsInterfaces (F : Implementations ι κ) (group : ι) (entry : Json) : Prop where
  isObject : ∀ j, entry.find (bytes "instanceToInterfaceMap") = some j → j.isObject = true
  has : ∀ x ∈ (interfaceMap entry).map Prod.fst, HasInterface F group entry x
  distinct : ((interfaceMap entry).map Prod.fst).Nodup

/-- If an instance is given one of its own interfaces, the other interfaces are found there too. -/
def ServesItself (F : Implementations ι κ) (group : ι) (instanceName : ByteString)
    (entry : Json) : Prop :=
  ∀ own, mappedInterface F group entry instanceName = some own →
    ∀ x ∈ (interfaceMap entry).map Prod.fst, x ≠ instanceName → HasInterface F own entry x

theorem getNonEmptyStringOrThrow_ok {containingObject : Json} {key value : ByteString}
    (h : containingObject.find key = some (.string value)) (hne : value ≠ [])
    (containingKey : String) :
    getNonEmptyStringOrThrow containingObject containingKey key = .ok value := by
  simp only [getNonEmptyStringOrThrow, getJson, h, bind, Except.bind, if_neg hne]
  rfl

theorem getObjectOrThrow_ok {containingObject : Json} {key : ByteString}
    {members : List (ByteString × Json)}
    (h : containingObject.find key = some (.object members)) (containingKey : String) :
    getObjectOrThrow containingObject containingKey key = .ok members := by
  simp only [getObjectOrThrow, getJson, h, bind, Except.bind]
  rfl

theorem insertInitParameters_ok {parameters : Json}
    (hobject : ∀ j, entry.find (bytes "initParameters") = some j → j.isObject = true)
    (hparameters : parametersWith entry (g.instanceOf instanceName).mInitParameters =
      .ok parameters) :
    ∃ g', insertInitParameters g instanceName entry = .ok g' ∧ g'.mNodes = g.mNodes ∧
      g'.given = g.given ∧ g'.instanceOf = Function.update g.instanceOf instanceName
        { g.instanceOf instanceName with mInitParameters := parameters } := by
  rw [insertInitParameters]
  rw [parametersWith] at hparameters
  cases hj : entry.find (bytes "initParameters") with
  | none =>
    rw [hj] at hparameters
    obtain rfl := Except.ok.inj hparameters
    exact ⟨g, rfl, rfl, rfl, (Function.update_eq_self _ _).symm⟩
  | some initParameters =>
    rw [hj] at hparameters
    have hinsert : (g.instanceOf instanceName).insertInitParameters initParameters =
        .ok { g.instanceOf instanceName with mInitParameters := parameters } := by
      dsimp only at hparameters
      rw [TypedInstance.insertInitParameters]
      split_ifs at hparameters ⊢ with hnull
      · obtain rfl := Except.ok.inj hparameters
        rfl
      · rw [hparameters]
        rfl
    obtain ⟨g', hget, hnodes, hgiven, hinstances⟩ :=
      ImplementedGraph.getOrCreateInstance_spec g instanceName
    refine ⟨g'.write instanceName
      { g.instanceOf instanceName with mInitParameters := parameters }, ?_, hnodes, hgiven, ?_⟩
    · simp only [hobject _ hj, if_true, ImplementedGraph.insertInstanceInitParameters, hget,
        hinsert, bind, Except.bind, pure, Except.pure]
    · rw [ImplementedGraph.instanceOf_write, hinstances]

theorem mem_keys_iff {members : List (ByteString × Json)} {x : ByteString} :
    x ∈ members.map Prod.fst ↔ (members.lookup x).isSome = true := by
  rw [List.lookup_isSome_iff, List.mem_map]
  exact exists_congr fun m => and_congr_right' (eq_comm.trans beq_iff_eq.symm)

theorem HasInterface.isSome {group : ι} {x : ByteString} (h : HasInterface F group entry x) :
    (mappedInterface F group entry x).isSome = true := by
  obtain ⟨j, name, hx, -, hname, hinterface⟩ := h.named
  rw [mappedInterface, hx, Option.bind_some, Json.stringAt_of_find hname]
  exact hinterface

theorem mappedInterface_of_not_mem (group : ι) {x : ByteString}
    (hx : x ∉ (interfaceMap entry).map Prod.fst) : mappedInterface F group entry x = none := by
  rw [mem_keys_iff, Option.not_isSome_iff_eq_none] at hx
  rw [mappedInterface, hx]
  rfl

/-- A round of the loop asks the group that the instance is at that moment. -/
theorem mapInterface_eq {x name : ByteString} {j : Json} (hne : name ≠ [])
    (hx : (interfaceMap entry).lookup x = some j)
    (hname : j.find (bytes "interface") = some (.string name)) :
    mapInterface F instanceName (interfaceMap entry) g x =
      g.setInstanceImplementationToGroupInterface F x instanceName name := by
  obtain ⟨members, rfl⟩ : ∃ members, j = .object members := by
    cases j with
    | object members => exact ⟨members, rfl⟩
    | _ => cases hname
  rw [mapInterface, getObjectOrThrow_ok ((Json.find_object _ _).trans hx)]
  simp only [bind, Except.bind]
  rw [getNonEmptyStringOrThrow_ok hname hne]

theorem mapInterface_mapped {group : ι} {interface : ByteString → Option ι} {x : ByteString}
    (hhas : HasInterface F group entry x)
    (hinterface : interface x = mappedInterface F group entry x)
    (himplemented : g.implementationOf instanceName = some group) :
    ∃ g', mapInterface F instanceName (interfaceMap entry) g x =
        (F.takeAll g.given (handed interface g.contextOf [x])).map (fun _ => g') ∧
      Mapped g g' [x] interface := by
  obtain ⟨j, name, hx, hne, hname, hnamed⟩ := hhas.named
  obtain ⟨implementation, himplementation⟩ := Option.isSome_iff_exists.1 hnamed
  rw [mappedInterface, hx, Option.bind_some, Json.stringAt_of_find hname, himplementation]
    at hinterface
  have hhanded : handed interface g.contextOf [x] = [(implementation, g.contextOf x)] := by
    rw [handed, List.filterMap_cons, hinterface]
    rfl
  obtain ⟨g', hset, hnodes, hgiven, hinstances⟩ :=
    @ImplementedGraph.setInstanceImplementationToGroupInterface_eq _ _ F g x instanceName name group
      implementation himplemented hhas.isGroup himplementation
  refine ⟨g', ?_, hnodes, by rw [hgiven, hhanded], fun y => ?_⟩
  · rw [mapInterface_eq hne hx hname, hset, hhanded, takeAll_singleton]
  · rw [hinstances, Function.update_apply]
    simp only [List.mem_singleton]
    split_ifs with hy
    · rw [hy, hinterface]
    · rfl

/-- The instances are given their interfaces one after the other. -/
theorem foldlM_mapInterface {group : ι} {interface : ByteString → Option ι} {keys : List ByteString}
    (hkeys : ∀ x ∈ keys, HasInterface F group entry x)
    (hinterface : ∀ x ∈ keys, interface x = mappedInterface F group entry x)
    (hitself : instanceName ∉ keys) {g : ImplementedGraph ι κ}
    (himplemented : g.implementationOf instanceName = some group) :
    ∃ g', keys.foldlM (mapInterface F instanceName (interfaceMap entry)) g =
        (F.takeAll g.given (handed interface g.contextOf keys)).map (fun _ => g') ∧
      Mapped g g' keys interface := by
  induction keys generalizing g with
  | nil => exact ⟨g, rfl, .nil g interface⟩
  | cons key keys ih =>
    obtain ⟨hkey, hkeys⟩ := List.forall_mem_cons.1 hkeys
    obtain ⟨hfirst, hinterface⟩ := List.forall_mem_cons.1 hinterface
    obtain ⟨hne, hitself⟩ := not_or.1 (List.mem_cons.not.1 hitself)
    obtain ⟨g₁, hone, hmapped₁⟩ := mapInterface_mapped hkey hfirst himplemented
    have himplemented₁ : g₁.implementationOf instanceName = some group := by
      rw [hmapped₁.implementationOf, if_neg (List.mem_singleton.not.2 hne)]
      exact himplemented
    obtain ⟨g', hrest, hmapped⟩ := ih hkeys hinterface hitself himplemented₁
    refine ⟨g', ?_, hmapped₁.append hmapped⟩
    rw [List.foldlM_cons]
    exact hmapped₁.bind hone hrest

theorem mapInterfaces_eq {group : ι} (hmaps : MapsInterfaces F group entry)
    (g : ImplementedGraph ι κ) : mapInterfaces F g instanceName entry =
      ((interfaceMap entry).map Prod.fst).foldlM (mapInterface F instanceName (interfaceMap entry))
        g := by
  rw [mapInterfaces]
  cases hj : entry.find (bytes "instanceToInterfaceMap") with
  | none =>
    have hnil : interfaceMap entry = [] := by rw [interfaceMap, hj]
    rw [hnil]
    rfl
  | some j =>
    obtain ⟨members, rfl⟩ := Json.isObject_iff.1 (hmaps.isObject j hj)
    have hmembers : interfaceMap entry = members := by rw [interfaceMap, hj]
    rw [Option.isSome_some, if_pos rfl, getObjectOrThrow_ok hj, hmembers]
    rfl

/-- The group that is asked for an interface: an instance that was given one of its own interfaces
before is not the same group any more. -/
def askedGroup (F : Implementations ι κ) (group : ι) (instanceName : ByteString) (entry : Json)
    (later : Bool) : ι :=
  if later then (mappedInterface F group entry instanceName).getD group else group

/-- The interface of the group that is asked. -/
def askedInterface (F : Implementations ι κ) (group : ι) (instanceName : ByteString) (entry : Json)
    (x : ByteString) : Option ι :=
  mappedInterface F (askedGroup F group instanceName entry (instanceName < x)) entry x

/-- The contexts that the interfaces of a group are given. -/
def taken (F : Implementations ι κ) (group : ι) (instanceName : ByteString) (entry : Json)
    (contextOf : ByteString → Option κ) : List (ι × Option κ) :=
  handed (askedInterface F group instanceName entry) contextOf ((interfaceMap entry).map Prod.fst)

theorem askedInterface_of_not_lt (group : ι) {x : ByteString} (h : ¬ instanceName < x) :
    askedInterface F group instanceName entry x = mappedInterface F group entry x := by
  rw [askedInterface, askedGroup, decide_eq_false h, if_neg Bool.false_ne_true]

theorem askedInterface_of_lt {group own : ι} {x : ByteString} (h : instanceName < x)
    (hown : mappedInterface F group entry instanceName = some own) :
    askedInterface F group instanceName entry x = mappedInterface F own entry x := by
  rw [askedInterface, askedGroup, decide_eq_true h, if_pos rfl, hown, Option.getD_some]

theorem askedInterface_of_not_mem {group : ι} (x : ByteString)
    (h : instanceName ∉ (interfaceMap entry).map Prod.fst) :
    askedInterface F group instanceName entry x = mappedInterface F group entry x := by
  rw [askedInterface, askedGroup, mappedInterface_of_not_mem group h, Option.getD_none, ite_self]

/-- The group that is asked has the interface. -/
theorem MapsInterfaces.asked {group : ι} (hmaps : MapsInterfaces F group entry)
    (hitself : ServesItself F group instanceName entry) {x : ByteString}
    (hx : x ∈ (interfaceMap entry).map Prod.fst) {later : Bool}
    (hlater : later = true → x ≠ instanceName) :
    HasInterface F (askedGroup F group instanceName entry later) entry x := by
  cases later with
  | false => exact hmaps.has x hx
  | true =>
    rw [askedGroup, if_pos rfl]
    cases hown : mappedInterface F group entry instanceName with
    | none => exact hmaps.has x hx
    | some own => exact hitself own hown x hx (hlater rfl)

/-- The instance itself, if it is in the map, is one of the instances that are given interfaces of
the group. -/
theorem foldlM_upToItself {group : ι} {interface : ByteString → Option ι} {front : List ByteString}
    (hkeys : ∀ x ∈ front ++ [instanceName], HasInterface F group entry x)
    (hinterface : ∀ x ∈ front ++ [instanceName], interface x = mappedInterface F group entry x)
    (hfront : instanceName ∉ front) (himplemented : g.implementationOf instanceName = some group) :
    ∃ g', (front ++ [instanceName]).foldlM (mapInterface F instanceName (interfaceMap entry)) g =
        (F.takeAll g.given (handed interface g.contextOf (front ++ [instanceName]))).map
          (fun _ => g') ∧
      Mapped g g' (front ++ [instanceName]) interface := by
  obtain ⟨hkeys, hitself⟩ := List.forall_mem_append.1 hkeys
  obtain ⟨hinterface, hinterfaceItself⟩ := List.forall_mem_append.1 hinterface
  obtain ⟨g₁, hall, hmapped₁⟩ := foldlM_mapInterface hkeys hinterface hfront himplemented
  have himplemented₁ : g₁.implementationOf instanceName = some group := by
    rw [hmapped₁.implementationOf, if_neg hfront]
    exact himplemented
  obtain ⟨g', hone, hmapped⟩ := mapInterface_mapped (hitself _ (List.mem_singleton_self _))
    (hinterfaceItself _ (List.mem_singleton_self _)) himplemented₁
  refine ⟨g', ?_, hmapped₁.append hmapped⟩
  rw [List.foldlM_append]
  refine hmapped₁.bind hall ?_
  rw [List.foldlM_cons, hone]
  exact bind_pure _

theorem around_of_sorted {front back : List ByteString} {key : ByteString}
    (h : (front ++ key :: back).Pairwise (· < ·)) :
    (∀ x ∈ front, x < key) ∧ (∀ x ∈ back, key < x) ∧ key ∉ front ∧ key ∉ back := by
  obtain ⟨-, hback, hacross⟩ := List.pairwise_append.1 h
  have hafter := (List.pairwise_cons.1 hback).1
  have hbefore : ∀ x ∈ front, x < key := fun x hx => hacross x hx key List.mem_cons_self
  exact ⟨hbefore, hafter, fun hmem => List.lt_irrefl _ (hbefore _ hmem),
    fun hmem => List.lt_irrefl _ (hafter _ hmem)⟩

/-- **The interfaces are mapped** if they take the contexts of their instances. -/
theorem mapInterfaces_mapped {group : ι}
    (himplemented : g.implementationOf instanceName = some group)
    (hmaps : MapsInterfaces F group entry) (hitself : ServesItself F group instanceName entry)
    (hsorted : ((interfaceMap entry).map Prod.fst).Pairwise (· < ·)) :
    ∃ g', mapInterfaces F g instanceName entry =
        (F.takeAll g.given (taken F group instanceName entry g.contextOf)).map (fun _ => g') ∧
      Mapped g g' ((interfaceMap entry).map Prod.fst)
        (askedInterface F group instanceName entry) := by
  rw [mapInterfaces_eq hmaps, taken]
  by_cases hin : instanceName ∈ (interfaceMap entry).map Prod.fst
  · obtain ⟨front, back, hkeys⟩ := List.append_of_mem hin
    have hhas := hmaps.has
    rw [ServesItself] at hitself
    rw [hkeys] at hsorted hhas hitself ⊢
    obtain ⟨hbefore, hafter, hfront, hback⟩ := around_of_sorted hsorted
    obtain ⟨own, hown⟩ := Option.isSome_iff_exists.1
      (hhas instanceName (List.mem_append_right _ List.mem_cons_self)).isSome
    rw [List.append_cons] at hhas hitself ⊢
    have hhasOwn : ∀ x ∈ back, HasInterface F own entry x := fun x hx =>
      hitself own hown x (List.mem_append_right _ hx) fun heq => hback (heq ▸ hx)
    have hasked : ∀ x ∈ front ++ [instanceName],
        askedInterface F group instanceName entry x = mappedInterface F group entry x :=
      List.forall_mem_append.2
        ⟨fun x hx => askedInterface_of_not_lt group (List.lt_asymm (hbefore x hx)),
          List.forall_mem_singleton.2 (askedInterface_of_not_lt group (List.lt_irrefl _))⟩
    obtain ⟨g₁, hupTo, hmapped₁⟩ := foldlM_upToItself
      (fun x hx => hhas x (List.mem_append_left _ hx)) hasked hfront himplemented
    have hitselfIn : instanceName ∈ front ++ [instanceName] :=
      List.mem_append_right _ (List.mem_singleton_self _)
    have himplemented₁ : g₁.implementationOf instanceName = some own := by
      rw [hmapped₁.implementationOf, if_pos hitselfIn, hasked _ hitselfIn, hown]
    obtain ⟨g', hrest, hmapped⟩ := foldlM_mapInterface hhasOwn
      (fun x hx => askedInterface_of_lt (hafter x hx) hown) hback himplemented₁
    refine ⟨g', ?_, hmapped₁.append hmapped⟩
    rw [List.foldlM_append]
    exact hmapped₁.bind hupTo hrest
  · exact foldlM_mapInterface hmaps.has (fun x _ => askedInterface_of_not_mem x hin) hin
      himplemented

/-- A member with a type whose constructor succeeds, and gives an implementation that serves the
nodes and has the interfaces that are mapped. -/
structure TypedMember (F : Implementations ι κ) (mNodes : List ArchitectureNode) (old : Json)
    (instanceName : ByteString) (entry : Json) (implementation : ι) : Prop where
  isObject : ∀ j, entry.find (bytes "initParameters") = some j → j.isObject = true
  created : ∃ typeName parameters, typeName ≠ [] ∧
    entry.find (bytes "type") = some (.string typeName) ∧
    parametersWith entry old = .ok parameters ∧
    F.createImplementation instanceName typeName parameters = .ok implementation
  serves : ∀ node ∈ mNodes, node.instanceName = instanceName →
    ImplementedGraph.Serves F implementation node
  maps : MapsInterfaces F implementation entry

/-- The implementation that a member gives an instance.  It depends on whether the member's own
instance is given an interface before. -/
def written (F : Implementations ι κ) (implementation : ι) (instanceName : ByteString)
    (entry : Json) (later : Bool) (x : ByteString) : Option ι :=
  (mappedInterface F (askedGroup F implementation instanceName entry later) entry x).or
    (if x = instanceName then some implementation else none)

/-- What a member does to the implementations; the type, the init parameters and the contexts of the
other instances stay. -/
structure Written (g g' : ImplementedGraph ι κ) (instanceName : ByteString)
    (gives : ByteString → Option ι) (takes : List (ι × Option κ)) : Prop where
  mNodes : g'.mNodes = g.mNodes
  given : g'.given = g.given ++ takes
  contextOf : g'.contextOf = g.contextOf
  implementationOf : ∀ x, g'.implementationOf x = (gives x).or (g.implementationOf x)
  mTypeName : ∀ x, x ≠ instanceName → (g'.instanceOf x).mTypeName = (g.instanceOf x).mTypeName
  mInitParameters : ∀ x, x ≠ instanceName →
    (g'.instanceOf x).mInitParameters = (g.instanceOf x).mInitParameters

/-- The first two steps of a member with a type create the implementation of its instance. -/
theorem implementInstance_eq {implementation : ι}
    (h : TypedMember F g.mNodes (g.instanceOf instanceName).mInitParameters instanceName entry
      implementation) (hnew : (g.instanceOf instanceName).mTypeName = []) :
    ∃ g', implementInstance F g (instanceName, entry) = mapInterfaces F g' instanceName entry ∧
      Written g g' instanceName (fun x => if x = instanceName then some implementation else none)
        [] := by
  obtain ⟨typeName, parameters, hne, htype, hparameters, hcreate⟩ := h.created
  obtain ⟨g₁, hinsert, hnodes₁, hgiven₁, hinstances₁⟩ :=
    insertInitParameters_ok h.isObject hparameters
  have hinst₁ : g₁.instanceOf instanceName =
      { g.instanceOf instanceName with mInitParameters := parameters } := by
    rw [hinstances₁, Function.update_self]
  obtain ⟨g₂, hset, hnodes₂, hgiven₂, hinstances₂⟩ :=
    @ImplementedGraph.setInstanceType_ok _ _ F g₁ instanceName typeName implementation hne
      (by rw [hinst₁]; exact hnew) (by rw [hinst₁]; exact hcreate) (hnodes₁ ▸ h.serves)
  have hother : ∀ x, x ≠ instanceName → g₂.instanceOf x = g.instanceOf x := fun x hx => by
    rw [hinstances₂, Function.update_of_ne hx, hinstances₁, Function.update_of_ne hx]
  have hitself : g₂.instanceOf instanceName = { g.instanceOf instanceName with
      mTypeName := typeName, mImplementation := some implementation,
      mInitParameters := parameters } := by
    rw [hinstances₂, Function.update_self, hinst₁]
  refine ⟨g₂, ?_, hnodes₂.trans hnodes₁, ?_, funext fun x => ?_, fun x => ?_, fun x hx => ?_,
    fun x hx => ?_⟩
  · simp only [implementInstance, hinsert, bind, Except.bind]
    rw [setImplementation, htype, Option.isSome_some, if_pos rfl]
    simp only [getNonEmptyStringOrThrow_ok htype hne, bind, Except.bind, hset]
  · rw [hgiven₂, hgiven₁, List.append_nil]
  · rw [ImplementedGraph.contextOf, ImplementedGraph.contextOf]
    by_cases hx : x = instanceName
    · rw [hx, hitself]
    · rw [hother x hx]
  · rw [ImplementedGraph.implementationOf]
    split_ifs with hx
    · rw [hx, hitself, Option.some_or]
    · rw [hother x hx, Option.none_or]
      rfl
  · rw [hother x hx]
  · rw [hother x hx]

/-- **A member with a type** creates the implementation of its instance, and gives its interfaces to
other instances, if they take the contexts. -/
theorem implementInstance_typed {implementation : ι}
    (h : TypedMember F g.mNodes (g.instanceOf instanceName).mInitParameters instanceName entry
      implementation) (hnew : (g.instanceOf instanceName).mTypeName = [])
    (hitself : ServesItself F implementation instanceName entry)
    (hsorted : ((interfaceMap entry).map Prod.fst).Pairwise (· < ·)) :
    ∃ g', implementInstance F g (instanceName, entry) =
        (F.takeAll g.given (taken F implementation instanceName entry g.contextOf)).map
          (fun _ => g') ∧
      Written g g' instanceName
        (fun x => written F implementation instanceName entry (instanceName < x) x)
        (taken F implementation instanceName entry g.contextOf) := by
  obtain ⟨g₁, heq, hwritten⟩ := implementInstance_eq h hnew
  have himplemented : g₁.implementationOf instanceName = some implementation := by
    rw [hwritten.implementationOf, if_pos rfl, Option.some_or]
  have hgiven : g₁.given = g.given := by rw [hwritten.given, List.append_nil]
  obtain ⟨g', hmap, hmapped⟩ := mapInterfaces_mapped himplemented h.maps hitself hsorted
  rw [hgiven, hwritten.contextOf] at hmap
  refine ⟨g', heq.trans hmap, hmapped.mNodes.trans hwritten.mNodes, ?_,
    hmapped.contextOf.trans hwritten.contextOf, fun x => ?_, fun x hx => ?_, fun x hx => ?_⟩
  · rw [hmapped.given, hgiven, hwritten.contextOf]
    rfl
  · rw [written, Option.or_assoc, ← hwritten.implementationOf, hmapped.implementationOf]
    split_ifs with hx
    · have hlater : decide (instanceName < x) = true → x ≠ instanceName := fun hlt heq =>
        List.lt_irrefl _ (heq ▸ of_decide_eq_true hlt)
      exact (Option.or_of_isSome (h.maps.asked hitself hx hlater).isSome).symm
    · rw [mappedInterface_of_not_mem _ hx, Option.none_or]
  · rw [← hwritten.mTypeName x hx, hmapped.instanceOf]
    split_ifs <;> rfl
  · rw [← hwritten.mInitParameters x hx, hmapped.instanceOf]
    split_ifs <;> rfl

/-! ### An instance that is given one of its own interfaces -/

/-- A round that succeeds has found the interface. -/
theorem hasInterface_of_ok {group : ι} {g' : ImplementedGraph ι κ} {x : ByteString}
    (hhas : HasInterface F group entry x) {own : ι}
    (himplemented : g.implementationOf instanceName = some own)
    (h : mapInterface F instanceName (interfaceMap entry) g x = .ok g') :
    HasInterface F own entry x := by
  obtain ⟨j, name, hx, hne, hname, -⟩ := hhas.named
  rw [mapInterface_eq hne hx hname] at h
  rw [ImplementedGraph.implementationOf, ImplementedGraph.instanceOf] at himplemented
  cases hlookup : g.mInstances.lookup instanceName with
  | none =>
    rw [hlookup] at himplemented
    cases himplemented
  | some inst =>
    rw [hlookup, Option.getD_some] at himplemented
    simp only [ImplementedGraph.setInstanceImplementationToGroupInterface, hlookup,
      himplemented] at h
    split_ifs at h with hgroup
    · refine ⟨hgroup, j, name, hx, hne, hname, ?_⟩
      cases hinterface : F.getInterface own name with
      | none =>
        rw [hinterface] at h
        cases h
      | some implementation => rfl
    · cases h

theorem hasInterface_of_foldlM_ok {group own : ι} {keys : List ByteString}
    (hkeys : ∀ x ∈ keys, HasInterface F group entry x) (hitself : instanceName ∉ keys)
    {g g' : ImplementedGraph ι κ} (himplemented : g.implementationOf instanceName = some own)
    (h : keys.foldlM (mapInterface F instanceName (interfaceMap entry)) g = .ok g') :
    ∀ x ∈ keys, HasInterface F own entry x := by
  induction keys generalizing g with
  | nil => exact fun x hx => absurd hx List.not_mem_nil
  | cons key keys ih =>
    obtain ⟨hkey, hkeys⟩ := List.forall_mem_cons.1 hkeys
    obtain ⟨hne, hitself⟩ := not_or.1 (List.mem_cons.not.1 hitself)
    rw [List.foldlM_cons] at h
    obtain ⟨g₁, hone, hrest⟩ := bind_eq_ok.1 h
    have hown := hasInterface_of_ok hkey himplemented hone
    obtain ⟨g₂, hone', hmapped⟩ := mapInterface_mapped hown rfl himplemented
    obtain ⟨-, rfl⟩ := eq_of_takeAll F (hone'.symm.trans hone)
    have himplemented₁ : g₂.implementationOf instanceName = some own := by
      rw [hmapped.implementationOf, if_neg (List.mem_singleton.not.2 hne)]
      exact himplemented
    exact List.forall_mem_cons.2 ⟨hown, ih hkeys hitself himplemented₁ hrest⟩

/-- A member that succeeds has found the interfaces of the instances after its own in the interface
that its own instance was given. -/
theorem hasInterface_of_implementInstance_ok {implementation own : ι} {g' : ImplementedGraph ι κ}
    (h : TypedMember F g.mNodes (g.instanceOf instanceName).mInitParameters instanceName entry
      implementation) (hnew : (g.instanceOf instanceName).mTypeName = [])
    (hsorted : ((interfaceMap entry).map Prod.fst).Pairwise (· < ·))
    (hok : implementInstance F g (instanceName, entry) = .ok g')
    (hown : mappedInterface F implementation entry instanceName = some own) :
    ∀ x ∈ (interfaceMap entry).map Prod.fst, instanceName < x → HasInterface F own entry x := by
  obtain ⟨g₁, heq, hwritten⟩ := implementInstance_eq h hnew
  have himplemented : g₁.implementationOf instanceName = some implementation := by
    rw [hwritten.implementationOf, if_pos rfl, Option.some_or]
  have hin : instanceName ∈ (interfaceMap entry).map Prod.fst := by
    by_contra hnot
    rw [mappedInterface_of_not_mem implementation hnot] at hown
    cases hown
  obtain ⟨front, back, hkeys⟩ := List.append_of_mem hin
  rw [heq, mapInterfaces_eq h.maps] at hok
  have hhas := h.maps.has
  rw [hkeys] at hsorted hhas hok ⊢
  obtain ⟨hbefore, -, hfront, hback⟩ := around_of_sorted hsorted
  rw [List.append_cons] at hhas hok
  obtain ⟨g₂, hupTo, hmapped⟩ := foldlM_upToItself
    (fun x hx => hhas x (List.mem_append_left _ hx)) (fun _ _ => rfl) hfront himplemented
  rw [List.foldlM_append, hupTo] at hok
  obtain ⟨g₃, hfirst, hrest⟩ := bind_eq_ok.1 hok
  obtain ⟨-, rfl⟩ := eq_of_takeAll F hfirst
  have himplemented₂ : g₂.implementationOf instanceName = some own := by
    rw [hmapped.implementationOf, if_pos (List.mem_append_right _ (List.mem_singleton_self _))]
    exact hown
  have hfound := hasInterface_of_foldlM_ok (fun x hx => hhas x (List.mem_append_right _ hx)) hback
    himplemented₂ hrest
  intro x hx hlater
  rcases List.mem_append.1 hx with hx | hx
  · exact absurd hlater (List.lt_asymm (hbefore x hx))
  · rcases List.mem_cons.1 hx with rfl | hx
    · exact absurd hlater (List.lt_irrefl _)
    · exact hfound x hx

end GraphBuilder

end Maplang
