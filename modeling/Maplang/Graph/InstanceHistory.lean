import Maplang.Cpp.Logged
import Maplang.Graph.Implementing
import Maplang.Graph.Start
import Maplang.Machine.Basic

/-!
# The type of an instance and its implementation

An instance records the name of its type when the factory has made an implementation for it.  The
name stays when the implementation goes: `setImplementation` puts another one in its place, and
`setType` drops it before it asks the factory for a new one, which may throw, or need not be asked
if the new name is empty.  `setType` with the recorded name returns at once.

## Main definitions

* `Environment` : what the factory and the implementations do during a call.
* `RecordedInstance` and its functions, under their names in the code.
* `RecordedInstance.machine` : an instance and any calls of it.
* `RecordedInstance.TypeAgrees`, `RecordedInstance.StillMade` : what a call of `setType` should
  lead to, and the states in which it does.

## Main results

* `RecordedInstance.setType_typed`, `RecordedInstance.setImplementation_typed` : these are the
  setters that graphs are implemented with.
* `RecordedInstance.setPacketPusherForISources_started` : the setter that graphs are started with.
* `RecordedInstance.setType_ok` : what `setType` does when it makes an implementation.
* `RecordedInstance.typeAgrees_iff` : the histories whose calls of `setType` do what they should.
* `RecordedInstance.stillMade_of_undisturbed` : histories in which no implementation is replaced or
  dropped are among them.
-/

namespace Maplang

/-- What other code does during a call of an instance.  `MadeFor i typeName` says that the factory
makes the implementation `i` for this type. -/
structure Environment (ι κ π : Type) (MadeFor : ι → ByteString → Prop) where
  /-- `IImplementationFactory::createImplementation`; null is `none`. -/
  createImplementation : ByteString → Json → Code (Option ι)
  madeFor : ∀ {typeName initParameters i},
    createImplementation typeName initParameters = .ok (some i) → MadeFor i typeName
  /-- `asSource()` is not null. -/
  isSource : ι → Bool
  setSubgraphContext : ι → Option κ → Code Unit
  setPacketPusher : ι → π → Code Unit
  /-- The object that a weak pointer leads to is still there. -/
  alive : π → Bool

/-- What an implementation is given. -/
inductive Given (ι κ π : Type) where
  | context (implementation : ι) (context : Option κ)
  | pusher (implementation : ι) (packetPusher : π)

/-- `class Instance`, less the name of the thread group. -/
structure RecordedInstance (ι κ π : Type) where
  mTypeName : ByteString := []
  mImplementation : Option ι := none
  mInitParameters : Json := .null
  mSubgraphContext : Option κ := none
  mPacketPusherForISources : Option π := none

namespace RecordedInstance

variable {ι κ π : Type} {MadeFor : ι → ByteString → Prop}

/-! ### The code -/

section

variable (inst : RecordedInstance ι κ π) (env : Environment ι κ π MadeFor)

/-- `implementation->setSubgraphContext(mSubgraphContext)`. -/
def giveContext (implementation : ι) : Logged (Given ι κ π) Unit := do
  .tell (.context implementation inst.mSubgraphContext)
  .run (env.setSubgraphContext implementation inst.mSubgraphContext)

/-- A packet pusher is given to an implementation that is a source. -/
def givePusher (implementation : ι) : Option π → Logged (Given ι κ π) Unit
  | some packetPusher =>
    if env.isSource implementation then do
      .tell (.pusher implementation packetPusher)
      .run (env.setPacketPusher implementation packetPusher)
    else pure ()
  | none => pure ()

/-- `mPacketPusherForISources.lock()`. -/
def lockPusher : Option π := inst.mPacketPusherForISources.filter env.alive

/-- `Instance::setType`.  What has been changed stays when an exception is thrown. -/
def setType (typeName : ByteString) : Logged (Given ι κ π) Unit × RecordedInstance ι κ π :=
  if inst.mTypeName = typeName then (pure (), inst)
  else
    let inst := { inst with mImplementation := none }
    if typeName = [] then (pure (), inst)
    else
      match env.createImplementation typeName inst.mInitParameters with
      | .error fault => (.run (.error fault), inst)
      | .ok none => (.run (.error .undefinedBehaviour), inst)
      | .ok (some implementation) =>
        let inst := { inst with mImplementation := some implementation }
        let given := givePusher env implementation (inst.lockPusher env)
        match given.result with
        | .error _ => (given, inst)
        | .ok () => (given, { inst with mTypeName := typeName })

/-- `Instance::setImplementation`. -/
def setImplementation (implementation : Option ι) :
    Logged (Given ι κ π) Unit × RecordedInstance ι κ π :=
  let inst := { inst with mImplementation := implementation }
  match implementation with
  | none => (.run (.error .undefinedBehaviour), inst)
  | some implementation => (do
      inst.giveContext env implementation
      givePusher env implementation (inst.lockPusher env), inst)

/-- `Instance::setInitParameters`. -/
def setInitParameters (initParameters : Json) : RecordedInstance ι κ π :=
  { inst with mInitParameters := initParameters }

/-- `Instance::insertInitParameters`. -/
def insertInitParameters (initParameters : Json) :
    Logged (Given ι κ π) Unit × RecordedInstance ι κ π :=
  if inst.mInitParameters.isNull then (pure (), { inst with mInitParameters := initParameters })
  else
    match inst.mInitParameters.insert initParameters with
    | .error fault => (.run (.error fault), inst)
    | .ok mInitParameters => (pure (), { inst with mInitParameters })

/-- `Instance::setSubgraphContext`. -/
def setSubgraphContext (subgraphContext : Option κ) :
    Logged (Given ι κ π) Unit × RecordedInstance ι κ π :=
  let inst := { inst with mSubgraphContext := subgraphContext }
  match inst.mImplementation with
  | none => (pure (), inst)
  | some implementation => (inst.giveContext env implementation, inst)

/-- `Instance::setPacketPusherForISources`. -/
def setPacketPusherForISources [DecidableEq π] (packetPusher : Option π) :
    Logged (Given ι κ π) Unit × RecordedInstance ι κ π :=
  let currentPacketPusher := inst.lockPusher env
  if currentPacketPusher ≠ none ∧ currentPacketPusher ≠ packetPusher ∧ packetPusher ≠ none then
    (.run (throwRuntimeError ("Setting multiple packet pushers for an ISource is not supported. " ++
      "An Instance with an ISource implementation is probably referenced in more than one " ++
      "GraphNode.")), inst)
  else
    let inst := { inst with mPacketPusherForISources := packetPusher }
    match inst.mImplementation with
    | none => (pure (), inst)
    | some implementation => (givePusher env implementation packetPusher, inst)

end

/-! ### Histories -/

/-- A call of an instance. -/
inductive Setter (ι κ π : Type) where
  | setType (typeName : ByteString)
  | setImplementation (implementation : Option ι)
  | setInitParameters (initParameters : Json)
  | insertInitParameters (initParameters : Json)
  | setSubgraphContext (subgraphContext : Option κ)
  | setPacketPusherForISources (packetPusher : Option π)

/-- Make a call. -/
def set [DecidableEq π] (inst : RecordedInstance ι κ π) (env : Environment ι κ π MadeFor) :
    Setter ι κ π → Logged (Given ι κ π) Unit × RecordedInstance ι κ π
  | .setType typeName => inst.setType env typeName
  | .setImplementation implementation => inst.setImplementation env implementation
  | .setInitParameters initParameters => (pure (), inst.setInitParameters initParameters)
  | .insertInitParameters initParameters => inst.insertInitParameters initParameters
  | .setSubgraphContext subgraphContext => inst.setSubgraphContext env subgraphContext
  | .setPacketPusherForISources packetPusher => inst.setPacketPusherForISources env packetPusher

/-- One call after the other, whether they return or throw.  Other code may do something else
during each of them. -/
def machine (MadeFor : ι → ByteString → Prop) (κ π : Type) [DecidableEq π] :
    Machine (RecordedInstance ι κ π) (Environment ι κ π MadeFor × Setter ι κ π) where
  step inst call :=
    let (given, inst) := inst.set call.1 call.2
    match given.result with
    | .ok () | .error (.exception _) => some inst
    | .error _ => none

/-- The instance has an implementation that the factory made for a type. -/
def HasMade (MadeFor : ι → ByteString → Prop) (inst : RecordedInstance ι κ π)
    (typeName : ByteString) : Prop :=
  ∃ i, inst.mImplementation = some i ∧ MadeFor i typeName

/-- If a call of `setType` with a name returns, the instance has an implementation that was made for
this type, and records its name. -/
def TypeAgrees (inst : RecordedInstance ι κ π)
    (call : Environment ι κ π MadeFor × Setter ι κ π) : Prop :=
  ∀ typeName, call.2 = .setType typeName → typeName ≠ [] →
    (inst.setType call.1 typeName).1.result = .ok () →
    (inst.setType call.1 typeName).2.HasMade MadeFor typeName ∧
      (inst.setType call.1 typeName).2.mTypeName = typeName

/-- If a call of `setType` finds its name recorded, the implementation is still one that was made
for this type. -/
def StillMade (inst : RecordedInstance ι κ π)
    (call : Environment ι κ π MadeFor × Setter ι κ π) : Prop :=
  ∀ typeName, call.2 = .setType typeName → typeName ≠ [] → inst.mTypeName = typeName →
    inst.HasMade MadeFor typeName

/-- The call does not replace the implementation, or drop it without making a new one. -/
def Undisturbed (inst : RecordedInstance ι κ π)
    (call : Environment ι κ π MadeFor × Setter ι κ π) : Prop :=
  match call.2 with
  | .setType typeName => typeName ≠ [] ∧ (inst.setType call.1 typeName).1.result = .ok ()
  | .setImplementation _ => False
  | _ => True

variable {inst inst' : RecordedInstance ι κ π} {env : Environment ι κ π MadeFor}
  {typeName : ByteString}

/-! ### One call -/

/-- The instance, with what implementing a graph reads and changes. -/
def typed (inst : RecordedInstance ι κ π) : TypedInstance ι κ where
  mTypeName := inst.mTypeName
  mImplementation := inst.mImplementation
  mInitParameters := inst.mInitParameters
  mSubgraphContext := inst.mSubgraphContext

/-- Without a packet pusher an implementation is given none. -/
theorem lockPusher_eq_none (hpusher : inst.mPacketPusherForISources = none)
    (mImplementation : Option ι) : lockPusher { inst with mImplementation } env = none := by
  rw [lockPusher, hpusher, Option.filter_none]

/-- Without a packet pusher, and with a factory that returns no null, `setType` does what it does
while a graph is implemented. -/
theorem setType_typed (F : Implementations ι κ) (instanceName typeName : ByteString)
    (hcreate : ∀ initParameters, env.createImplementation typeName initParameters =
      (F.createImplementation instanceName typeName initParameters).map some)
    (hpusher : inst.mPacketPusherForISources = none) :
    inst.typed.setType F instanceName typeName =
      (inst.setType env typeName).1.result.map fun _ => (inst.setType env typeName).2.typed := by
  have htypeName : inst.typed.mTypeName = inst.mTypeName := rfl
  rw [setType, TypedInstance.setType, htypeName]
  by_cases hsame : inst.mTypeName = typeName
  · rw [if_pos hsame, if_pos hsame]
    rfl
  rw [if_neg hsame, if_neg hsame]
  by_cases hname : typeName = []
  · rw [if_pos hname, if_pos hname]
    rfl
  rw [if_neg hname, if_neg hname]
  simp only [hcreate, lockPusher_eq_none hpusher, typed]
  cases F.createImplementation instanceName typeName inst.mInitParameters <;> rfl

/-- Without a packet pusher, `setImplementation` does what it does while a graph is implemented: the
implementation is given the context of the instance, and nothing else. -/
theorem setImplementation_typed (F : Implementations ι κ) (given : List (ι × Option κ))
    (implementation : ι)
    (hcontext : env.setSubgraphContext implementation =
      F.setSubgraphContext given implementation)
    (hpusher : inst.mPacketPusherForISources = none) :
    inst.typed.setImplementation F given implementation =
        (inst.setImplementation env (some implementation)).1.result.map
          (fun _ => (inst.setImplementation env (some implementation)).2.typed) ∧
      (inst.setImplementation env (some implementation)).1.log =
        [.context implementation inst.typed.mSubgraphContext] := by
  simp only [setImplementation, TypedInstance.setImplementation, giveContext, givePusher, hcontext,
    lockPusher_eq_none hpusher, typed]
  cases F.setSubgraphContext given implementation inst.mSubgraphContext <;> exact ⟨rfl, rfl⟩

/-- The instance, with what starting a graph reads and changes. -/
def started (inst : RecordedInstance SourceImplementation κ String) : StartedInstance where
  mImplementation := inst.mImplementation
  mTypeName := asText inst.mTypeName
  mPacketPusherForISources := inst.mPacketPusherForISources

/-- The packet pusher that an implementation is given. -/
def pusherGiven : Given ι κ π → Option (ι × π)
  | .context _ _ => none
  | .pusher implementation packetPusher => some (implementation, packetPusher)

/-- While the packet pushers are alive, and no source refuses one, `setPacketPusherForISources` does
what it does when a graph is started. -/
theorem setPacketPusherForISources_started
    {MadeFor : SourceImplementation → ByteString → Prop}
    {env : Environment SourceImplementation κ String MadeFor}
    (inst : RecordedInstance SourceImplementation κ String)
    (halive : ∀ packetPusher, env.alive packetPusher = true)
    (hsource : env.isSource = SourceImplementation.isSource)
    (htakes : ∀ implementation packetPusher,
      env.setPacketPusher implementation packetPusher = .ok ()) (packetPusher : Option String) :
    inst.started.setPacketPusherForISources packetPusher =
      (inst.setPacketPusherForISources env packetPusher).1.result.map fun _ =>
        ((inst.setPacketPusherForISources env packetPusher).2.started,
          (inst.setPacketPusherForISources env packetPusher).1.log.filterMap pusherGiven) := by
  have hlock : inst.lockPusher env = inst.started.mPacketPusherForISources := by
    rw [lockPusher, started]
    cases inst.mPacketPusherForISources with
    | none => rfl
    | some packetPusher => rw [Option.filter_some, halive, if_pos rfl]
  rw [setPacketPusherForISources, StartedInstance.setPacketPusherForISources, hlock]
  dsimp only
  split_ifs
  · rfl
  · obtain ⟨mTypeName, mImplementation, mInitParameters, mSubgraphContext, mPusher⟩ := inst
    cases mImplementation with
    | none => rfl
    | some implementation =>
      cases packetPusher with
      | none => rfl
      | some packetPusher =>
        simp only [started, givePusher, hsource, htakes]
        split_ifs <;> rfl

/-- The recorded name: nothing is done. -/
theorem setType_same (h : inst.mTypeName = typeName) :
    inst.setType env typeName = (pure (), inst) := if_pos h

/-- **Another name**: if the call returns, the factory has made an implementation for it. -/
theorem setType_ok (hother : inst.mTypeName ≠ typeName) (hname : typeName ≠ [])
    (h : (inst.setType env typeName).1.result = .ok ()) : ∃ i, MadeFor i typeName ∧
      (inst.setType env typeName).2 =
        { inst with mImplementation := some i, mTypeName := typeName } := by
  rw [setType, if_neg hother] at h ⊢
  simp only [if_neg hname] at h ⊢
  cases hcreate : env.createImplementation typeName inst.mInitParameters with
  | error fault =>
    rw [hcreate] at h
    cases h
  | ok created =>
    cases created with
    | none =>
      rw [hcreate] at h
      cases h
    | some implementation =>
      rw [hcreate] at h
      refine ⟨implementation, env.madeFor hcreate, ?_⟩
      simp only at h ⊢
      split at h
      · rename_i fault hgiven
        exact absurd (hgiven.symm.trans h) nofun
      · rfl

/-- A call does what it should if the implementation is still there. -/
theorem typeAgrees_iff_stillMade (call : Environment ι κ π MadeFor × Setter ι κ π) :
    inst.TypeAgrees call ↔ inst.StillMade call := by
  refine forall_congr' fun typeName => forall_congr' fun _ => forall_congr' fun hname => ?_
  by_cases hsame : inst.mTypeName = typeName
  · rw [setType_same hsame]
    exact ⟨fun h _ => (h rfl).1, fun h _ => ⟨h hsame, hsame⟩⟩
  · refine ⟨fun _ h => absurd h hsame, fun _ hreturns => ?_⟩
    obtain ⟨i, hmade, hinst⟩ := setType_ok hsame hname hreturns
    rw [hinst]
    exact ⟨⟨i, rfl, hmade⟩, rfl⟩

/-- Only two of the calls have to do with the implementation. -/
theorem set_other [DecidableEq π] {setter : Setter ι κ π}
    (htype : ∀ typeName, setter ≠ .setType typeName)
    (himplementation : ∀ implementation, setter ≠ .setImplementation implementation) :
    (inst.set env setter).2.mTypeName = inst.mTypeName ∧
      (inst.set env setter).2.mImplementation = inst.mImplementation := by
  cases setter with
  | setType typeName => exact absurd rfl (htype typeName)
  | setImplementation implementation => exact absurd rfl (himplementation implementation)
  | setInitParameters initParameters => exact ⟨rfl, rfl⟩
  | insertInitParameters initParameters =>
    rw [set, insertInitParameters]
    split
    · exact ⟨rfl, rfl⟩
    · split <;> exact ⟨rfl, rfl⟩
  | setSubgraphContext subgraphContext =>
    rw [set, setSubgraphContext]
    simp only
    split <;> exact ⟨rfl, rfl⟩
  | setPacketPusherForISources packetPusher =>
    rw [set, setPacketPusherForISources]
    simp only
    split
    · exact ⟨rfl, rfl⟩
    · split <;> exact ⟨rfl, rfl⟩

/-! ### All calls -/

/-- A recorded name is the type that the implementation was made for. -/
def Agrees (MadeFor : ι → ByteString → Prop) (inst : RecordedInstance ι κ π) : Prop :=
  inst.mTypeName ≠ [] → inst.HasMade MadeFor inst.mTypeName

theorem Agrees.of_eq (h : inst.Agrees MadeFor) (heq : inst'.mTypeName = inst.mTypeName ∧
    inst'.mImplementation = inst.mImplementation) : inst'.Agrees MadeFor := by
  rw [Agrees, HasMade, heq.1, heq.2]
  exact h

variable [DecidableEq π] {call : Environment ι κ π MadeFor × Setter ι κ π}

theorem eq_of_step (h : (machine MadeFor κ π).step inst call = some inst') :
    inst' = (inst.set call.1 call.2).2 := by
  simp only [machine] at h
  split at h
  · exact (Option.some.inj h).symm
  · exact (Option.some.inj h).symm
  · cases h

/-- A call that does not disturb the implementation leaves it and the recorded name in agreement. -/
theorem Agrees.step (h : inst.Agrees MadeFor) (hundisturbed : inst.Undisturbed call)
    (hstep : (machine MadeFor κ π).step inst call = some inst') : inst'.Agrees MadeFor := by
  rw [eq_of_step hstep]
  obtain ⟨env, setter⟩ := call
  cases setter with
  | setType typeName =>
    obtain ⟨hname, hreturns⟩ := hundisturbed
    change (inst.setType env typeName).2.Agrees MadeFor
    by_cases hsame : inst.mTypeName = typeName
    · rw [setType_same hsame]
      exact h
    · obtain ⟨i, hmade, hinst⟩ := setType_ok hsame hname hreturns
      rw [hinst]
      exact fun _ => ⟨i, rfl, hmade⟩
  | setImplementation implementation => exact hundisturbed.elim
  | _ => exact h.of_eq (set_other (fun _ => nofun) (fun _ => nofun))

/-- **No implementation is disturbed**: as long as every type that is set is made, the
implementation is one that was made for the recorded name. -/
theorem stillMade_of_undisturbed {history : List (Environment ι κ π MadeFor × Setter ι κ π)}
    (h : (machine MadeFor κ π).Meets Undisturbed {} history) :
    (machine MadeFor κ π).Meets StillMade {} history := by
  refine h.mono (I := Agrees MadeFor) (fun inst call hagrees _ => ?_)
    (fun inst call inst' hagrees hundisturbed hstep => hagrees.step hundisturbed hstep)
    fun hname => absurd rfl hname
  rintro typeName - hname rfl
  exact hagrees hname

/-- **The recorded name outlives the implementation**: in all histories, a call of `setType` that
returns leaves an implementation that was made for its type, if and only if no such call finds its
name recorded and the implementation gone or replaced. -/
theorem typeAgrees_iff (history : List (Environment ι κ π MadeFor × Setter ι κ π)) :
    (machine MadeFor κ π).Meets TypeAgrees {} history ↔
      (machine MadeFor κ π).Meets StillMade {} history :=
  Machine.meets_congr (I := fun _ => True) (fun _ call _ => typeAgrees_iff_stillMade call)
    (fun _ _ _ _ _ _ => trivial) trivial history

/-- Only the type `T` is registered; an implementation is the type it was made for. -/
def onlyT : Environment ByteString Unit Unit (· = ·) where
  createImplementation typeName _ :=
    if typeName = bytes "T" then .ok (some typeName)
    else throwRuntimeError "No factory exists for the implementation."
  madeFor := by
    intro typeName _ i h
    split at h
    · exact (Option.some.inj (Except.ok.inj h)).symm
    · cases h
  isSource _ := false
  setSubgraphContext _ _ := .ok ()
  setPacketPusher _ _ := .ok ()
  alive _ := true

/-- The type is set to `T`, to one that is not registered, which throws, and to `T` again: there is
no implementation. -/
theorem not_typeAgrees : ¬ ∀ {ι κ π : Type} [DecidableEq π] {MadeFor : ι → ByteString → Prop}
    (history : List (Environment ι κ π MadeFor × Setter ι κ π)),
    (machine MadeFor κ π).Meets TypeAgrees {} history := by
  intro h
  have hhistory := h [(onlyT, .setType (bytes "T")), (onlyT, .setType (bytes "U")),
    (onlyT, .setType (bytes "T"))]
  have hlast := ((hhistory.2 _ rfl).2 _ rfl).1 (bytes "T") rfl (by decide) rfl
  obtain ⟨⟨i, hi, -⟩, -⟩ := hlast
  cases hi

end RecordedInstance

end Maplang
