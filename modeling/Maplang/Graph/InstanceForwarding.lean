import Maplang.Graph.InstanceHistory

/-!
# What an instance passes on to its implementation

The implementation, the subgraph context and the packet pusher of an instance can be set in any
order, and an implementation is to be given the other two.  `setImplementation` gives it both;
`setType` gives the implementation it makes the packet pusher, and no context.

## Main definitions

* `GivingInstance` : an instance, and all that it has given to implementations.
* `GivingInstance.machine` : an instance and any calls of it that succeed.
* `GivingInstance.Informed` : the implementation was last given the context and the packet pusher
  that the instance has.
* `GivingInstance.Informs`, `GivingInstance.ContextKnown` : the calls after which it was, and those
  before which the context need not be given.

## Main results

* `GivingInstance.informs_iff` : one call.
* `GivingInstance.forwarded_iff` : the histories after whose calls it always was.
-/

namespace Maplang

/-- An instance, with what it has given to implementations. -/
structure GivingInstance (ι κ π : Type) where
  inst : RecordedInstance ι κ π := {}
  given : List (Given ι κ π) := []

/-- A call of an instance while all packet pushers are alive; an implementation is a source, or it
is none, for good. -/
abbrev SteadyCall {ι : Type} (κ π : Type) (MadeFor : ι → ByteString → Prop) (isSource : ι → Bool) :=
  {call : Environment ι κ π MadeFor × RecordedInstance.Setter ι κ π //
    call.1.isSource = isSource ∧ ∀ packetPusher, call.1.alive packetPusher = true}

namespace GivingInstance

open RecordedInstance (Setter givePusher)

variable {ι κ π : Type} {MadeFor : ι → ByteString → Prop} {isSource : ι → Bool}

/-- One call after the other, as long as they succeed. -/
def machine [DecidableEq π] (κ : Type) (MadeFor : ι → ByteString → Prop) (isSource : ι → Bool) :
    Machine (GivingInstance ι κ π) (SteadyCall κ π MadeFor isSource) where
  step s call :=
    let (given, inst) := s.inst.set call.1.1 call.1.2
    match given.result with
    | .ok () => some ⟨inst, s.given ++ given.log⟩
    | .error _ => none

section

variable [DecidableEq ι] (i : ι) (log : List (Given ι κ π))

/-- The context that an entry gives to an implementation. -/
def contextTo : Given ι κ π → Option (Option κ)
  | .context implementation context => if implementation = i then some context else none
  | .pusher _ _ => none

/-- The packet pusher that an entry gives to an implementation. -/
def pusherTo : Given ι κ π → Option π
  | .context _ _ => none
  | .pusher implementation packetPusher => if implementation = i then some packetPusher else none

/-- The last context that an implementation was given. -/
def lastContext : Option (Option κ) := (log.filterMap (contextTo i)).getLast?

/-- The last packet pusher that an implementation was given. -/
def lastPusher : Option π := (log.filterMap (pusherTo i)).getLast?

theorem lastContext_append (log' : List (Given ι κ π)) :
    lastContext i (log ++ log') = (lastContext i log').or (lastContext i log) := by
  rw [lastContext, List.filterMap_append, List.getLast?_append, lastContext, lastContext]

theorem lastPusher_append (log' : List (Given ι κ π)) :
    lastPusher i (log ++ log') = (lastPusher i log').or (lastPusher i log) := by
  rw [lastPusher, List.filterMap_append, List.getLast?_append, lastPusher, lastPusher]

end

/-- The implementation was last given the context and the packet pusher that are set. -/
structure Informed [DecidableEq ι] (isSource : ι → Bool) (s : GivingInstance ι κ π) : Prop where
  context : ∀ i context, s.inst.mImplementation = some i → s.inst.mSubgraphContext = some context →
    lastContext i s.given = some (some context)
  pusher : ∀ i packetPusher, s.inst.mImplementation = some i → isSource i = true →
    s.inst.mPacketPusherForISources = some packetPusher →
    lastPusher i s.given = some packetPusher

/-- If the call succeeds, the implementation has been told everything after it. -/
def Informs [DecidableEq ι] [DecidableEq π] (s : GivingInstance ι κ π)
    (call : SteadyCall κ π MadeFor isSource) : Prop :=
  ∀ s', (machine κ MadeFor isSource).step s call = some s' → s'.Informed isSource

/-- A call of `setType` that makes an implementation is made while no context is set, or the
implementation has been given it before. -/
def ContextKnown [DecidableEq ι] [DecidableEq π] (s : GivingInstance ι κ π)
    (call : SteadyCall κ π MadeFor isSource) : Prop :=
  ∀ typeName i context, call.1.2 = .setType typeName → typeName ≠ [] →
    s.inst.mTypeName ≠ typeName →
    call.1.1.createImplementation typeName s.inst.mInitParameters = .ok (some i) →
    ((machine κ MadeFor isSource).step s call).isSome = true →
    s.inst.mSubgraphContext = some context → lastContext i s.given = some (some context)

/-! ### What is given -/

/-- What `givePusher` writes to the log. -/
def pusherEntry (isSource : ι → Bool) (i : ι) : Option π → List (Given ι κ π)
  | some packetPusher => if isSource i then [.pusher i packetPusher] else []
  | none => []

theorem log_givePusher (env : Environment ι κ π MadeFor) (i : ι) (packetPusher : Option π) :
    (givePusher env i packetPusher).log = pusherEntry env.isSource i packetPusher := by
  cases packetPusher with
  | none => rfl
  | some packetPusher =>
    rw [givePusher, pusherEntry]
    split <;> rfl

theorem result_giveContext (env : Environment ι κ π MadeFor) (inst : RecordedInstance ι κ π)
    (i : ι) : inst.giveContext env i =
      ⟨[.context i inst.mSubgraphContext], env.setSubgraphContext i inst.mSubgraphContext⟩ := rfl

theorem lockPusher_of_alive {env : Environment ι κ π MadeFor}
    (halive : ∀ packetPusher, env.alive packetPusher = true) (inst : RecordedInstance ι κ π) :
    inst.lockPusher env = inst.mPacketPusherForISources := by
  rw [RecordedInstance.lockPusher]
  cases inst.mPacketPusherForISources with
  | none => rfl
  | some packetPusher => rw [Option.filter_some, if_pos (halive packetPusher)]

variable [DecidableEq ι]

@[simp] theorem lastContext_nil (i : ι) : lastContext i ([] : List (Given ι κ π)) = none := rfl

@[simp] theorem lastPusher_nil (i : ι) : lastPusher i ([] : List (Given ι κ π)) = none := rfl

@[simp] theorem lastContext_context (i : ι) (context : Option κ) :
    lastContext i [(.context i context : Given ι κ π)] = some context := by
  simp [lastContext, contextTo]

@[simp] theorem lastPusher_context (i j : ι) (context : Option κ) :
    lastPusher i [(.context j context : Given ι κ π)] = none := by
  simp [lastPusher, pusherTo]

@[simp] theorem lastContext_pusherEntry (i j : ι) (packetPusher : Option π) :
    lastContext i (pusherEntry isSource j packetPusher : List (Given ι κ π)) = none := by
  cases packetPusher with
  | none => rfl
  | some packetPusher =>
    rw [pusherEntry]
    split
    · simp [lastContext, contextTo]
    · rfl

@[simp] theorem lastPusher_pusherEntry {i : ι} (hsource : isSource i = true)
    (packetPusher : Option π) :
    lastPusher i (pusherEntry isSource i packetPusher : List (Given ι κ π)) = packetPusher := by
  cases packetPusher with
  | none => rfl
  | some packetPusher => simp [pusherEntry, hsource, lastPusher, pusherTo]

/-! ### What the calls do -/

section

variable {env : Environment ι κ π MadeFor} {inst : RecordedInstance ι κ π}

omit [DecidableEq ι] in
/-- A call of `setType` that returns has found the name recorded, dropped the implementation, or
made one and given it the packet pusher. -/
theorem setType_cases (halive : ∀ packetPusher, env.alive packetPusher = true)
    {typeName : ByteString} (h : (inst.setType env typeName).1.result = .ok ()) :
    inst.mTypeName = typeName ∧ inst.setType env typeName = (pure (), inst) ∨
    typeName = [] ∧
      inst.setType env typeName = (pure (), { inst with mImplementation := none }) ∨
    inst.mTypeName ≠ typeName ∧ typeName ≠ [] ∧ ∃ i,
      env.createImplementation typeName inst.mInitParameters = .ok (some i) ∧
      (inst.setType env typeName).1.log =
        pusherEntry env.isSource i inst.mPacketPusherForISources ∧
      (inst.setType env typeName).2 =
        { inst with mImplementation := some i, mTypeName := typeName } := by
  by_cases hsame : inst.mTypeName = typeName
  · exact .inl ⟨hsame, RecordedInstance.setType_same hsame⟩
  by_cases hname : typeName = []
  · exact .inr (.inl ⟨hname, by rw [RecordedInstance.setType, if_neg hsame, if_pos hname]⟩)
  refine .inr (.inr ⟨hsame, hname, ?_⟩)
  rw [RecordedInstance.setType, if_neg hsame] at h ⊢
  simp only [if_neg hname] at h ⊢
  cases hcreate : env.createImplementation typeName inst.mInitParameters with
  | error fault =>
    rw [hcreate] at h
    cases h
  | ok created =>
    cases created with
    | none =>
      rw [hcreate] at h
      cases h
    | some i =>
      rw [hcreate] at h
      refine ⟨i, rfl, ?_⟩
      simp only [lockPusher_of_alive halive] at h ⊢
      split at h
      · rename_i fault hgiven
        cases hgiven.symm.trans h
      · exact ⟨log_givePusher env i _, rfl⟩

omit [DecidableEq ι] in
/-- A call of `setImplementation` that returns has given the implementation both. -/
theorem setImplementation_ok (halive : ∀ packetPusher, env.alive packetPusher = true)
    {implementation : Option ι}
    (h : (inst.setImplementation env implementation).1.result = .ok ()) :
    ∃ i, implementation = some i ∧ inst.setImplementation env implementation =
      (⟨.context i inst.mSubgraphContext ::
          pusherEntry env.isSource i inst.mPacketPusherForISources, .ok ()⟩,
        { inst with mImplementation := some i }) := by
  cases implementation with
  | none => cases h
  | some i =>
    refine ⟨i, rfl, ?_⟩
    simp only [RecordedInstance.setImplementation, result_giveContext,
      lockPusher_of_alive halive] at h ⊢
    cases hcontext : env.setSubgraphContext i inst.mSubgraphContext with
    | error fault =>
      rw [hcontext] at h
      cases h
    | ok =>
      rw [hcontext] at h
      have hpusher : (givePusher env i inst.mPacketPusherForISources).result = .ok () := h
      change (Logged.mk ([.context i inst.mSubgraphContext] ++
        (givePusher env i inst.mPacketPusherForISources).log)
        (givePusher env i inst.mPacketPusherForISources).result, _) = _
      rw [log_givePusher, hpusher]
      rfl

omit [DecidableEq ι] in
theorem setSubgraphContext_of_none (h : inst.mImplementation = none)
    (subgraphContext : Option κ) : inst.setSubgraphContext env subgraphContext =
      (pure (), { inst with mSubgraphContext := subgraphContext }) := by
  rw [RecordedInstance.setSubgraphContext]
  simp only [h]

omit [DecidableEq ι] in
theorem setSubgraphContext_of_some {i : ι} (h : inst.mImplementation = some i)
    (subgraphContext : Option κ) : inst.setSubgraphContext env subgraphContext =
      (⟨[.context i subgraphContext], env.setSubgraphContext i subgraphContext⟩,
        { inst with mSubgraphContext := subgraphContext }) := by
  rw [RecordedInstance.setSubgraphContext]
  simp only [h, result_giveContext]

omit [DecidableEq ι] in
/-- A packet pusher that is taken is recorded, and given to the implementation. -/
theorem setPacketPusherForISources_ok [DecidableEq π] {packetPusher : Option π}
    (h : (inst.setPacketPusherForISources env packetPusher).1.result = .ok ()) :
    (inst.setPacketPusherForISources env packetPusher).2 =
        { inst with mPacketPusherForISources := packetPusher } ∧
      ∀ i, inst.mImplementation = some i →
        (inst.setPacketPusherForISources env packetPusher).1.log =
          pusherEntry env.isSource i packetPusher := by
  rw [RecordedInstance.setPacketPusherForISources] at h ⊢
  simp only at h ⊢
  split at h
  · cases h
  · rename_i hother
    rw [if_neg hother]
    cases himplementation : inst.mImplementation with
    | none => exact ⟨rfl, fun i hi => by cases hi⟩
    | some i =>
      refine ⟨rfl, fun j hj => ?_⟩
      obtain rfl := Option.some.inj hj
      exact log_givePusher env i packetPusher

end

variable {s s' : GivingInstance ι κ π}

/-- An implementation stays informed when nothing it should know of changes. -/
theorem Informed.of_eq (h : s.Informed isSource)
    (himplementation : s'.inst.mImplementation = s.inst.mImplementation)
    (hcontext : s'.inst.mSubgraphContext = s.inst.mSubgraphContext)
    (hpusher : s'.inst.mPacketPusherForISources = s.inst.mPacketPusherForISources)
    (hgiven : s'.given = s.given) : s'.Informed isSource := by
  constructor
  · intro i context hi hcontext'
    rw [hgiven]
    exact h.context i context (himplementation ▸ hi) (hcontext ▸ hcontext')
  · intro i packetPusher hi hsource hpusher'
    rw [hgiven]
    exact h.pusher i packetPusher (himplementation ▸ hi) hsource (hpusher ▸ hpusher')

/-- Without an implementation there is nothing to know. -/
theorem informed_of_none (h : s.inst.mImplementation = none) : s.Informed isSource := by
  constructor
  · intro i context hi
    cases h.symm.trans hi
  · intro i packetPusher hi
    cases h.symm.trans hi

/-- After a call of `setType` that makes an implementation, only the context may be missing. -/
theorem informed_of_made {inst : RecordedInstance ι κ π} {i : ι} {given : List (Given ι κ π)}
    (hi : inst.mImplementation = some i) :
    Informed isSource ⟨inst, given ++ pusherEntry isSource i inst.mPacketPusherForISources⟩ ↔
      ∀ context, inst.mSubgraphContext = some context →
        lastContext i given = some (some context) := by
  constructor
  · intro h context hcontext
    have hlast := h.context i context hi hcontext
    rwa [lastContext_append, lastContext_pusherEntry, Option.none_or] at hlast
  · intro h
    constructor
    · intro j context hj hcontext
      obtain rfl := Option.some.inj (hi.symm.trans hj)
      rw [lastContext_append, lastContext_pusherEntry, Option.none_or]
      exact h context hcontext
    · intro j packetPusher hj hsource hpusher
      obtain rfl := Option.some.inj (hi.symm.trans hj)
      rw [lastPusher_append, lastPusher_pusherEntry hsource, hpusher, Option.some_or]

section

variable {env : Environment ι κ π MadeFor}

/-- After a call of `setType` that returns, only an implementation that was made may be missing the
context. -/
theorem informed_setType (h : s.Informed env.isSource)
    (halive : ∀ packetPusher, env.alive packetPusher = true) {typeName : ByteString}
    (hok : (s.inst.setType env typeName).1.result = .ok ()) :
    Informed env.isSource
        ⟨(s.inst.setType env typeName).2, s.given ++ (s.inst.setType env typeName).1.log⟩ ↔
      ∀ i context, typeName ≠ [] → s.inst.mTypeName ≠ typeName →
        env.createImplementation typeName s.inst.mInitParameters = .ok (some i) →
        s.inst.mSubgraphContext = some context → lastContext i s.given = some (some context) := by
  rcases setType_cases halive hok with ⟨hrecorded, hsame⟩ | ⟨hempty, hdropped⟩ |
    ⟨hother, hname, i, hcreate, hlog, hinst⟩
  · rw [hsame]
    exact iff_of_true (h.of_eq rfl rfl rfl (List.append_nil _)) fun _ _ _ hother =>
      absurd hrecorded hother
  · rw [hdropped]
    exact iff_of_true (informed_of_none rfl) fun _ _ hname => absurd hempty hname
  · rw [hlog, hinst, informed_of_made rfl]
    refine ⟨fun hmade j context _ _ hcreate' => ?_, fun hknown context =>
      hknown i context hname hother hcreate⟩
    obtain rfl : i = j := Option.some.inj (Except.ok.inj (hcreate.symm.trans hcreate'))
    exact hmade context

theorem informed_setImplementation (halive : ∀ packetPusher, env.alive packetPusher = true)
    {implementation : Option ι}
    (hok : (s.inst.setImplementation env implementation).1.result = .ok ()) :
    Informed env.isSource ⟨(s.inst.setImplementation env implementation).2,
      s.given ++ (s.inst.setImplementation env implementation).1.log⟩ := by
  obtain ⟨i, rfl, hset⟩ := setImplementation_ok halive hok
  rw [hset, List.append_cons]
  exact (informed_of_made rfl).2 fun context hcontext => by
    rw [lastContext_append, lastContext_context, hcontext, Option.some_or]

theorem Informed.insertInitParameters (h : s.Informed isSource) (initParameters : Json) :
    Informed isSource ⟨(s.inst.insertInitParameters initParameters).2,
      s.given ++ (s.inst.insertInitParameters initParameters).1.log⟩ := by
  rw [RecordedInstance.insertInitParameters]
  split
  · exact h.of_eq rfl rfl rfl (List.append_nil _)
  · split <;> exact h.of_eq rfl rfl rfl (List.append_nil _)

/-- A context that is set is given to the implementation. -/
theorem Informed.setSubgraphContext (h : s.Informed isSource) (subgraphContext : Option κ) :
    Informed isSource ⟨(s.inst.setSubgraphContext env subgraphContext).2,
      s.given ++ (s.inst.setSubgraphContext env subgraphContext).1.log⟩ := by
  rcases Option.eq_none_or_eq_some s.inst.mImplementation with hnone | ⟨i, hi⟩
  · rw [setSubgraphContext_of_none hnone]
    exact informed_of_none hnone
  rw [setSubgraphContext_of_some hi]
  constructor
  · intro j context hj hcontext
    obtain rfl := Option.some.inj (hi.symm.trans hj)
    obtain rfl : subgraphContext = some context := hcontext
    rw [lastContext_append, lastContext_context, Option.some_or]
  · intro j packetPusher hj hsource hpusher
    rw [lastPusher_append, lastPusher_context, Option.none_or]
    exact h.pusher j packetPusher hj hsource hpusher

theorem Informed.setPacketPusherForISources [DecidableEq π] (h : s.Informed env.isSource)
    {packetPusher : Option π}
    (hok : (s.inst.setPacketPusherForISources env packetPusher).1.result = .ok ()) :
    Informed env.isSource ⟨(s.inst.setPacketPusherForISources env packetPusher).2,
      s.given ++ (s.inst.setPacketPusherForISources env packetPusher).1.log⟩ := by
  obtain ⟨hinst, hlog⟩ := setPacketPusherForISources_ok hok
  rw [hinst]
  rcases Option.eq_none_or_eq_some s.inst.mImplementation with hnone | ⟨i, hi⟩
  · exact informed_of_none hnone
  · rw [hlog i hi]
    exact (informed_of_made (by exact hi)).2 fun context hcontext =>
      h.context i context hi hcontext

end

variable [DecidableEq π] {call : SteadyCall κ π MadeFor isSource}

omit [DecidableEq ι] in
theorem step_eq_some : (machine κ MadeFor isSource).step s call = some s' ↔
    (s.inst.set call.1.1 call.1.2).1.result = .ok () ∧
      s' = ⟨(s.inst.set call.1.1 call.1.2).2,
        s.given ++ (s.inst.set call.1.1 call.1.2).1.log⟩ := by
  simp only [machine]
  split
  · rename_i hok
    rw [Option.some.injEq, eq_comm]
    exact ⟨fun h => ⟨hok, h⟩, fun h => h.2⟩
  · rename_i fault herror
    refine iff_of_false (fun h => by cases h) fun h => ?_
    cases herror.symm.trans h.1

/-- **One call** leaves the implementation informed, unless `setType` makes it and there is a
context. -/
theorem informs_iff (h : s.Informed isSource) (call : SteadyCall κ π MadeFor isSource) :
    s.Informs call ↔ s.ContextKnown call := by
  obtain ⟨⟨env, setter⟩, rfl, halive⟩ := call
  constructor
  · intro hinforms typeName i context hsetter hname hother hcreate hsome
    obtain ⟨s', hs'⟩ := Option.isSome_iff_exists.1 hsome
    have hinformed := hinforms s' hs'
    obtain ⟨hok, rfl⟩ := step_eq_some.1 hs'
    obtain rfl : setter = .setType typeName := hsetter
    exact (informed_setType h halive hok).1 hinformed i context hname hother hcreate
  · intro hknown s' hs'
    have hsome := Option.isSome_of_eq_some hs'
    obtain ⟨hok, rfl⟩ := step_eq_some.1 hs'
    cases setter with
    | setType typeName =>
      exact (informed_setType h halive hok).2 fun i context hname hother hcreate =>
        hknown typeName i context rfl hname hother hcreate hsome
    | setImplementation implementation => exact informed_setImplementation halive hok
    | setInitParameters initParameters => exact h.of_eq rfl rfl rfl (List.append_nil _)
    | insertInitParameters initParameters => exact h.insertInitParameters initParameters
    | setSubgraphContext subgraphContext => exact h.setSubgraphContext subgraphContext
    | setPacketPusherForISources packetPusher => exact h.setPacketPusherForISources hok

/-- **An implementation that `setType` makes is not given the context**: in all histories, the
implementation was last given the context and the packet pusher that are set after each call, if and
only if no call of `setType` makes one while there is a context that it was not given before. -/
theorem forwarded_iff (history : List (SteadyCall κ π MadeFor isSource)) :
    (machine κ MadeFor isSource).Meets Informs {} history ↔
      (machine κ MadeFor isSource).Meets ContextKnown {} history :=
  Machine.meets_congr (fun _ call h => informs_iff h call)
    (fun _ call s' h hknown hstep => (informs_iff h call).2 hknown s' hstep)
    (informed_of_none rfl) history

/-- A context is set, and then the type: the implementation has been given nothing. -/
theorem not_forwarded : ¬ ∀ {ι κ π : Type} [DecidableEq ι] [DecidableEq π]
    {MadeFor : ι → ByteString → Prop} {isSource : ι → Bool}
    (history : List (SteadyCall κ π MadeFor isSource)),
    (machine κ MadeFor isSource).Meets Informs {} history := by
  intro h
  have hhistory := @h ByteString Unit Unit _ _ _ (fun _ => false)
    [⟨(RecordedInstance.onlyT, .setSubgraphContext (some ())), rfl, fun _ => rfl⟩,
      ⟨(RecordedInstance.onlyT, .setType (bytes "T")), rfl, fun _ => rfl⟩]
  have hlast := (hhistory.2 _ rfl).1 _ rfl
  cases hlast.context (bytes "T") () rfl rfl

end GivingInstance

end Maplang
