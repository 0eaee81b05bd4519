import Maplang.Graph.InstanceHistory

/-!
# Setting the type of an instance in a graph

`DataGraph::setInstanceType` changes an instance in place and tests afterwards whether the new
implementation can serve the nodes.  There are three points at which it may throw: the factory, the
packet pusher that is given to the new implementation, and the test.  At each of them the old
implementation has already been dropped.

## Main definitions

* `RecordedGraph.setInstanceType` : the code, with the graph after it, also when it throws.
* `RecordedGraph.KeepsOnFailure` : a call that throws leaves the type name and the implementation.
* `RecordedGraph.NothingLost` : the calls that throw too early to change anything, or have nothing
  to drop.

## Main results

* `RecordedGraph.validateInstanceImplementation_eq` : the test passes, or throws.
* `RecordedGraph.keepsOnFailure_iff` : the calls that leave the instance as it was when they throw.
-/

namespace Maplang

/-- `class DataGraphImpl`: the nodes, in the order they are visited, and the instances with what
setting their type reads and changes. -/
structure RecordedGraph (ι κ π : Type) where
  mNodes : List ArchitectureNode
  mInstances : UnorderedMap ByteString (RecordedInstance ι κ π)

namespace RecordedGraph

open RecordedInstance (givePusher)

open ImplementedGraph (Serves validateNode)

variable {ι κ π : Type} {MadeFor : ι → ByteString → Prop}

/-! ### The code -/

section

variable (env : Environment ι κ π MadeFor) (isPathable : ι → Bool) (g : RecordedGraph ι κ π)

/-- Implementations as they are tested: which are sources, and which are pathable. -/
def tested : Implementations ι κ where
  createImplementation _ typeName initParameters := do
    match ← env.createImplementation typeName initParameters with
    | some implementation => return implementation
    | none => .error .undefinedBehaviour
  isSource := env.isSource
  isPathable := isPathable
  isGroup _ := false
  getInterface _ _ := none
  setSubgraphContext _ := env.setSubgraphContext

/-- Write to an instance through a pointer to it. -/
def write (instanceName : ByteString) (inst : RecordedInstance ι κ π) : RecordedGraph ι κ π :=
  { g with mInstances := UnorderedMap.put g.mInstances instanceName inst }

/-- `DataGraphImpl::getOrCreateInstance`.  That a new instance is placed in the default thread group
is left out: it has no type name and no implementation before and after. -/
def getOrCreateInstance (instanceName : ByteString) :
    RecordedInstance ι κ π × RecordedGraph ι κ π :=
  match g.mInstances.lookup instanceName with
  | some inst => (inst, g)
  | none => ({}, g.write instanceName {})

/-- `DataGraphImpl::validateInstanceImplementation`. -/
def validateInstanceImplementation (instanceName : ByteString) (inst : RecordedInstance ι κ π) :
    Code Unit :=
  match inst.mImplementation with
  | none => .error .undefinedBehaviour
  | some implementation =>
    g.mNodes.forM (validateNode (tested env isPathable) instanceName inst.mTypeName implementation)

/-- `DataGraph::setInstanceType`.  What has been changed stays when an exception is thrown. -/
def setInstanceType (instanceName typeName : ByteString) : Code Unit × RecordedGraph ι κ π :=
  if typeName = [] then
    (throwRuntimeError ("Cannot use empty typeName. Instance: '" ++ asText instanceName ++ "'"), g)
  else
    let (inst, g) := g.getOrCreateInstance instanceName
    let (given, inst) := inst.setType env typeName
    let g := g.write instanceName inst
    match given.result with
    -- what is caught is thrown again as a plain `std::exception`
    | .error (.exception _) => (throwRuntimeError "std::exception", g)
    | .error fault => (.error fault, g)
    | .ok () =>
      match g.validateInstanceImplementation env isPathable instanceName inst with
      | .error fault => (.error fault, g)
      | .ok () => (.ok (), g.write instanceName inst)

/-- If the call throws, the instance has the type name and the implementation that it had. -/
def KeepsOnFailure (instanceName typeName : ByteString) (inst : RecordedInstance ι κ π) : Prop :=
  ∀ what g', g.setInstanceType env isPathable instanceName typeName =
      (.error (.exception what), g') →
    ∃ inst', g'.mInstances.lookup instanceName = some inst' ∧
      inst'.mTypeName = inst.mTypeName ∧ inst'.mImplementation = inst.mImplementation

/-- No type is made, since the name is empty or recorded already; or the constructor throws, and
there was no implementation to drop; or the new implementation throws when it is given the packet
pusher, and it is the old one; or it serves all nodes of the instance, so that nothing is thrown. -/
def NothingLost (instanceName typeName : ByteString) (inst : RecordedInstance ι κ π) : Prop :=
  typeName = [] ∨ inst.mTypeName = typeName ∨
    match env.createImplementation typeName inst.mInitParameters with
    | .error (.exception _) => inst.mImplementation = none
    | .ok (some implementation) =>
      match (givePusher env implementation (inst.lockPusher env)).result with
      | .error (.exception _) => inst.mImplementation = some implementation
      | .ok () => ∀ node ∈ g.mNodes, node.instanceName = instanceName →
          Serves (tested env isPathable) implementation node
      | .error _ => True
    | _ => True

end

variable {env : Environment ι κ π MadeFor} {isPathable : ι → Bool} {g g' : RecordedGraph ι κ π}
  {instanceName typeName : ByteString} {inst inst' : RecordedInstance ι κ π}

@[simp] theorem mInstances_write (g : RecordedGraph ι κ π) (instanceName : ByteString)
    (inst : RecordedInstance ι κ π) :
    (g.write instanceName inst).mInstances.lookup instanceName = some inst := by
  rw [write, UnorderedMap.lookup_put, if_pos rfl]

/-! ### The test of an implementation -/

/-- A node that is not served makes the test throw. -/
theorem validateNode_throws {F : Implementations ι κ} {implementation : ι} {node : ArchitectureNode}
    (hname : node.instanceName = instanceName) (h : ¬ Serves F implementation node)
    (mTypeName : ByteString) :
    ∃ what, validateNode F instanceName mTypeName implementation node =
      .error (.exception what) := by
  rw [validateNode, if_neg (not_not.2 hname)]
  by_cases hincoming :
      (node.allowsIncomingConnections && !F.isPathable implementation) = true
  · exact ⟨_, if_pos hincoming⟩
  by_cases houtgoing : (node.allowsOutgoingConnections && !F.isPathable implementation &&
      !F.isSource implementation) = true
  · rw [if_neg hincoming]
    exact ⟨_, if_pos houtgoing⟩
  · refine absurd ⟨fun hin => ?_, fun hout => ?_⟩ h
    · simpa [hin] using hincoming
    · by_contra hnot
      simp only [not_or, Bool.not_eq_true] at hnot
      simp [hout, hnot] at houtgoing

/-- Visiting nodes with a test that throws or returns. -/
theorem forM_throws {α : Type} {f : α → Code Unit} {l : List α}
    (h : ∀ a ∈ l, f a = .ok () ∨ ∃ what, f a = .error (.exception what))
    (hthrows : ∃ a ∈ l, f a ≠ .ok ()) : ∃ what, l.forM f = .error (.exception what) := by
  induction l with
  | nil => simp at hthrows
  | cons a l ih =>
    obtain ⟨ha, hl⟩ := List.forall_mem_cons.1 h
    rcases ha with ha | ⟨what, ha⟩
    · obtain ⟨b, hb, hne⟩ := hthrows
      rcases List.mem_cons.1 hb with rfl | hb
      · exact absurd ha hne
      · rw [List.forM, ha]
        exact ih hl ⟨b, hb, hne⟩
    · rw [List.forM, ha]
      exact ⟨what, rfl⟩

/-- **The test passes** if the implementation serves all nodes of the instance, and throws
otherwise. -/
theorem validateInstanceImplementation_eq {implementation : ι}
    (himplementation : inst.mImplementation = some implementation) :
    ((∀ node ∈ g.mNodes, node.instanceName = instanceName →
        Serves (tested env isPathable) implementation node) ∧
      g.validateInstanceImplementation env isPathable instanceName inst = .ok ()) ∨
    (¬ (∀ node ∈ g.mNodes, node.instanceName = instanceName →
        Serves (tested env isPathable) implementation node) ∧
      ∃ what, g.validateInstanceImplementation env isPathable instanceName inst =
        .error (.exception what)) := by
  rw [validateInstanceImplementation, himplementation]
  by_cases hserves : ∀ node ∈ g.mNodes, node.instanceName = instanceName →
      Serves (tested env isPathable) implementation node
  · exact .inl ⟨hserves, ImplementedGraph.forM_ok fun node hnode =>
      ImplementedGraph.validateNode_ok inst.mTypeName (hserves node hnode)⟩
  · refine .inr ⟨hserves, forM_throws (fun node _ => ?_) ?_⟩
    · by_cases hnode : node.instanceName = instanceName →
          Serves (tested env isPathable) implementation node
      · exact .inl (ImplementedGraph.validateNode_ok inst.mTypeName hnode)
      · obtain ⟨hname, hnot⟩ := Classical.not_imp.1 hnode
        exact .inr (validateNode_throws hname hnot inst.mTypeName)
    · push Not at hserves
      obtain ⟨node, hnode, hname, hnot⟩ := hserves
      obtain ⟨what, hthrows⟩ := validateNode_throws hname hnot inst.mTypeName
      exact ⟨node, hnode, fun hok => by cases hthrows.symm.trans hok⟩

/-! ### What a call that throws has changed -/

/-- The instance that a call leaves is looked at if the call throws. -/
theorem keepsOnFailure_of_eq {code : Code Unit}
    (hrun : g.setInstanceType env isPathable instanceName typeName =
      (code, g'.write instanceName inst')) :
    g.KeepsOnFailure env isPathable instanceName typeName inst ↔
      ((∃ what, code = .error (.exception what)) →
        inst'.mTypeName = inst.mTypeName ∧ inst'.mImplementation = inst.mImplementation) := by
  constructor
  · rintro hkeeps ⟨what, rfl⟩
    obtain ⟨inst'', hlookup, hsame⟩ := hkeeps what _ hrun
    rw [mInstances_write] at hlookup
    obtain rfl := Option.some.inj hlookup
    exact hsame
  · intro hsame what g'' hthrown
    rw [hrun] at hthrown
    obtain ⟨hcode, rfl⟩ := Prod.mk.inj hthrown
    exact ⟨inst', mInstances_write _ _ _, hsame ⟨what, hcode⟩⟩

section

variable (hname : typeName ≠ []) (hlookup : g.mInstances.lookup instanceName = some inst)

include hname hlookup

/-- `Instance::setType` does not return; what it throws is replaced. -/
theorem setInstanceType_error {fault : Fault}
    (hset : (inst.setType env typeName).1.result = .error fault)
    (hinst : (inst.setType env typeName).2 = inst') :
    ∃ code, g.setInstanceType env isPathable instanceName typeName =
        (code, g.write instanceName inst') ∧
      ((∃ what, code = .error (.exception what)) ↔ ∃ what, fault = .exception what) := by
  rw [setInstanceType, if_neg hname, getOrCreateInstance, hlookup]
  simp only [hset, hinst]
  cases fault with
  | exception what => exact ⟨_, rfl, iff_of_true ⟨_, rfl⟩ ⟨_, rfl⟩⟩
  | nontermination => exact ⟨_, rfl, by simp⟩
  | undefinedBehaviour => exact ⟨_, rfl, by simp⟩

theorem keepsOnFailure_of_error {fault : Fault}
    (hset : (inst.setType env typeName).1.result = .error fault)
    (hinst : (inst.setType env typeName).2 = inst') :
    g.KeepsOnFailure env isPathable instanceName typeName inst ↔
      ((∃ what, fault = .exception what) →
        inst'.mTypeName = inst.mTypeName ∧ inst'.mImplementation = inst.mImplementation) := by
  obtain ⟨code, hrun, hcode⟩ :=
    @setInstanceType_error _ _ _ _ env isPathable _ _ _ _ _ hname hlookup _ hset hinst
  rw [keepsOnFailure_of_eq hrun, hcode]

/-- `Instance::setType` returns, and the test follows. -/
theorem keepsOnFailure_of_ok (hset : (inst.setType env typeName).1.result = .ok ())
    (hinst : (inst.setType env typeName).2 = inst') :
    g.KeepsOnFailure env isPathable instanceName typeName inst ↔
      ((∃ what, (g.write instanceName inst').validateInstanceImplementation env isPathable
          instanceName inst' = .error (.exception what)) →
        inst'.mTypeName = inst.mTypeName ∧ inst'.mImplementation = inst.mImplementation) := by
  cases hvalid : (g.write instanceName inst').validateInstanceImplementation env isPathable
      instanceName inst' with
  | error fault =>
    have hrun : g.setInstanceType env isPathable instanceName typeName =
        (.error fault, g.write instanceName inst') := by
      rw [setInstanceType, if_neg hname, getOrCreateInstance, hlookup]
      simp only [hset, hinst, hvalid]
    exact keepsOnFailure_of_eq hrun
  | ok =>
    have hrun : g.setInstanceType env isPathable instanceName typeName =
        (.ok (), (g.write instanceName inst').write instanceName inst') := by
      rw [setInstanceType, if_neg hname, getOrCreateInstance, hlookup]
      simp only [hset, hinst, hvalid]
    exact keepsOnFailure_of_eq hrun

/-- A recorded name is not made again, and the instance is only tested. -/
theorem keepsOnFailure_of_recorded (hsame : inst.mTypeName = typeName) :
    g.KeepsOnFailure env isPathable instanceName typeName inst := by
  have hset : inst.setType env typeName = (pure (), inst) := RecordedInstance.setType_same hsame
  exact (keepsOnFailure_of_ok hname hlookup (by rw [hset]; rfl) rfl).2 fun _ => by
    rw [hset]
    exact ⟨rfl, rfl⟩

end

/-- The factory returns no implementation: the old one is gone. -/
theorem setType_not_created (hother : inst.mTypeName ≠ typeName) (hname : typeName ≠ [])
    {fault : Fault}
    (hcreate : env.createImplementation typeName inst.mInitParameters = .error fault) :
    inst.setType env typeName = (.run (.error fault), { inst with mImplementation := none }) := by
  rw [RecordedInstance.setType, if_neg hother]
  simp only [if_neg hname, hcreate]

/-- The factory returns null, which is not expected. -/
theorem setType_null (hother : inst.mTypeName ≠ typeName) (hname : typeName ≠ [])
    (hcreate : env.createImplementation typeName inst.mInitParameters = .ok none) :
    (inst.setType env typeName).1.result = .error .undefinedBehaviour := by
  rw [RecordedInstance.setType, if_neg hother]
  simp only [if_neg hname, hcreate, Logged.result_run]

/-- The factory returns an implementation: it is given the packet pusher, and then its type is
recorded. -/
theorem setType_created (hother : inst.mTypeName ≠ typeName) (hname : typeName ≠ []) {i : ι}
    (hcreate : env.createImplementation typeName inst.mInitParameters = .ok (some i)) :
    (inst.setType env typeName).1 = givePusher env i (inst.lockPusher env) ∧
      ((givePusher env i (inst.lockPusher env)).result = .ok () →
        (inst.setType env typeName).2 =
          { inst with mImplementation := some i, mTypeName := typeName }) ∧
      ∀ fault, (givePusher env i (inst.lockPusher env)).result = .error fault →
        (inst.setType env typeName).2 = { inst with mImplementation := some i } := by
  have hlock : RecordedInstance.lockPusher { inst with mImplementation := some i } env =
      inst.lockPusher env := rfl
  rw [RecordedInstance.setType, if_neg hother]
  simp only [if_neg hname, hcreate, hlock]
  cases hgiven : (givePusher env i (inst.lockPusher env)).result with
  | error fault => exact ⟨rfl, fun h => (by cases h), fun _ _ => rfl⟩
  | ok => exact ⟨rfl, fun _ => rfl, fun _ h => (by cases h)⟩

/-- **Setting a type that fails** leaves the type name and the implementation exactly if nothing is
lost on the way. -/
theorem keepsOnFailure_iff (hlookup : g.mInstances.lookup instanceName = some inst) :
    g.KeepsOnFailure env isPathable instanceName typeName inst ↔
      g.NothingLost env isPathable instanceName typeName inst := by
  by_cases hname : typeName = []
  · -- nothing has been looked at
    refine iff_of_true (fun what g' hthrown => ?_) (.inl hname)
    rw [setInstanceType, if_pos hname] at hthrown
    obtain ⟨-, rfl⟩ := Prod.mk.inj hthrown
    exact ⟨inst, hlookup, rfl, rfl⟩
  by_cases hsame : inst.mTypeName = typeName
  · exact iff_of_true (keepsOnFailure_of_recorded hname hlookup hsame) (.inr (.inl hsame))
  rw [NothingLost, or_iff_right hname, or_iff_right hsame]
  cases hcreate : env.createImplementation typeName inst.mInitParameters with
  | error fault =>
    have hset := setType_not_created hsame hname hcreate
    rw [keepsOnFailure_of_error hname hlookup (by rw [hset]; rfl) (by rw [hset])]
    cases fault with
    | exception what => simp [eq_comm]
    | nontermination => simp
    | undefinedBehaviour => simp
  | ok created =>
    cases created with
    | none =>
      rw [keepsOnFailure_of_error hname hlookup (setType_null hsame hname hcreate) rfl]
      simp
    | some i =>
      obtain ⟨hgiven, hmade, hnot⟩ := setType_created hsame hname hcreate
      cases hresult : (givePusher env i (inst.lockPusher env)).result with
      | error fault =>
        rw [keepsOnFailure_of_error hname hlookup (by rw [hgiven, hresult]) (hnot fault hresult)]
        cases fault with
        | exception what => simp [eq_comm, hresult]
        | nontermination => simp [hresult]
        | undefinedBehaviour => simp [hresult]
      | ok =>
        -- the type has been recorded, and a test that throws does not take it back
        rw [keepsOnFailure_of_ok hname hlookup (by rw [hgiven, hresult]) (hmade hresult)]
        simp only [hresult]
        rcases @validateInstanceImplementation_eq _ _ _ _ env isPathable
            (g.write instanceName { inst with mImplementation := some i, mTypeName := typeName })
            instanceName { inst with mImplementation := some i, mTypeName := typeName } i rfl with
          ⟨hserves, hok⟩ | ⟨hserves, what, hthrows⟩
        · refine iff_of_true ?_ hserves
          rintro ⟨what, hthrows⟩
          cases hthrows.symm.trans hok
        · exact iff_of_false (fun hkeeps => hsame (hkeeps ⟨what, hthrows⟩).1.symm) hserves

/-- An instance with a type and an implementation. -/
def typedS : RecordedInstance ByteString Unit Unit :=
  { mTypeName := bytes "S", mImplementation := some (bytes "S") }

/-- A node with inputs has this instance. -/
def graphS : RecordedGraph ByteString Unit Unit where
  mNodes := [⟨bytes "n", bytes "i", true, false⟩]
  mInstances := AList.singleton (bytes "i") typedS

/-- It is given another type, whose implementation serves the node, or does not. -/
theorem keepsOnFailure_iff_replaced :
    graphS.KeepsOnFailure RecordedInstance.onlyT (fun _ => true) (bytes "i") (bytes "T") typedS ∧
    ¬ graphS.KeepsOnFailure RecordedInstance.onlyT (fun _ => false) (bytes "i") (bytes "T")
      typedS := by
  constructor
  · refine (keepsOnFailure_iff rfl).2 (.inr (.inr fun node hnode _ => ?_))
    obtain rfl := List.mem_singleton.1 hnode
    exact ⟨fun _ => rfl, nofun⟩
  · intro hkeeps
    rcases (keepsOnFailure_iff rfl).1 hkeeps with hname | hname | hserves
    · cases hname
    · exact absurd hname (by decide)
    · cases (hserves _ (List.mem_singleton_self _) rfl).1 rfl

/-- The type of an instance is set to one that is not registered: its implementation is gone. -/
theorem not_keepsOnFailure : ¬ ∀ {ι κ π : Type} {MadeFor : ι → ByteString → Prop}
    (env : Environment ι κ π MadeFor) (isPathable : ι → Bool) (g : RecordedGraph ι κ π)
    (instanceName typeName : ByteString) (inst : RecordedInstance ι κ π),
    g.mInstances.lookup instanceName = some inst →
    g.KeepsOnFailure env isPathable instanceName typeName inst := by
  intro h
  have hkeeps := h (κ := Unit) (π := Unit) RecordedInstance.onlyT (fun _ => true)
    ⟨[], AList.singleton (bytes "i")
      { mTypeName := bytes "T", mImplementation := some (bytes "T") }⟩
    (bytes "i") (bytes "U") _ rfl
  obtain ⟨inst', hlookup, -, himplementation⟩ := hkeeps _ _ rfl
  obtain rfl := Option.some.inj hlookup
  cases himplementation

end RecordedGraph

end Maplang
