import Maplang.Graph.Implementing
import Mathlib.Data.List.Nodup
import Mathlib.Logic.Embedding.Basic

/-!
# The names of instances matter

The members of an implementation file are looked at in the order of their names.  A member that
takes its implementation from a group finds it only if the group comes first.  When two members give
an instance an implementation, the last one stays.  A group that gives its own instance one of its
interfaces is asked no more; the interface is.  The interfaces are given the contexts of their
instances in the order of the names, and one of them may refuse.

## Main definitions

* `renameImplementation`, `ImplementedGraph.rename` : other names for the instances.
* `Provides`, `WellFormed` : the implementation files that should be accepted.
* `NameIndependent` : whatever the names are, the instances are given the same implementations.
* `Independent` : no member needs another one, no two of them disagree, none is asked for an
  interface after it has been replaced, and the interfaces take the contexts they are given.

## Main results

* `foldlM_typed` : what members with types do, one after the other.
* `implementInstance_first` : the first member must have a type.
* `nameIndependent_iff` : the names do not matter exactly for files whose members are independent.
-/

namespace Maplang

open GraphBuilder

/-! ### Members in order -/

/-- The members of an object, in the order of its map. -/
def inOrder (members : List (ByteString × Json)) : List (ByteString × Json) :=
  members.foldr (fun m ms => Json.placeMember m.1 m.2 ms) []

theorem placeMember_perm (key : ByteString) (value : Json) (ms : List (ByteString × Json)) :
    (Json.placeMember key value ms).Perm ((key, value) :: ms) := by
  induction ms with
  | nil => exact .refl _
  | cons m ms ih =>
    rw [Json.placeMember]
    split_ifs
    · exact .refl _
    · exact (ih.cons m).trans (.swap _ _ _)

theorem inOrder_perm (members : List (ByteString × Json)) : (inOrder members).Perm members := by
  induction members with
  | nil => exact .refl _
  | cons m ms ih => exact (placeMember_perm m.1 m.2 _).trans (ih.cons m)

theorem placeMember_sorted {key : ByteString} {value : Json} {ms : List (ByteString × Json)}
    (h : ms.Pairwise fun a b => ¬ b.1 < a.1) :
    (Json.placeMember key value ms).Pairwise fun a b => ¬ b.1 < a.1 := by
  induction ms with
  | nil => exact List.pairwise_singleton _ _
  | cons m ms ih =>
    obtain ⟨hm, hms⟩ := List.pairwise_cons.1 h
    rw [Json.placeMember]
    split_ifs with hlt
    · refine List.pairwise_cons.2 ⟨fun b hb hbefore => ?_, h⟩
      rcases List.mem_cons.1 hb with rfl | hb
      · exact List.lt_asymm hlt hbefore
      · exact hm b hb (List.lt_trans hbefore hlt)
    · refine List.pairwise_cons.2 ⟨fun b hb => ?_, ih hms⟩
      rcases List.mem_cons.1 ((placeMember_perm key value ms).mem_iff.1 hb) with rfl | hb
      · exact hlt
      · exact hm b hb

theorem inOrder_sorted (members : List (ByteString × Json)) :
    (inOrder members).Pairwise fun a b => ¬ b.1 < a.1 := by
  induction members with
  | nil => exact .nil
  | cons m ms ih => exact placeMember_sorted ih

/-- The keys are in strict order when no key is there twice. -/
theorem inOrder_strict {members : List (ByteString × Json)}
    (hdistinct : (members.map Prod.fst).Nodup) :
    ((inOrder members).map Prod.fst).Pairwise (· < ·) := by
  have hnodup := ((inOrder_perm members).map Prod.fst).nodup_iff.2 hdistinct
  have hsorted : ((inOrder members).map Prod.fst).Pairwise fun a b => ¬ b < a :=
    List.pairwise_map.2 (inOrder_sorted members)
  refine (hsorted.and hnodup).imp fun ⟨hle, hne⟩ => ?_
  exact (List.le_iff_lt_or_eq.1 (List.not_lt.1 hle)).resolve_right hne

theorem lookup_inOrder {members : List (ByteString × Json)}
    (hdistinct : (members.map Prod.fst).Nodup) (key : ByteString) :
    (inOrder members).lookup key = members.lookup key := by
  induction members generalizing key with
  | nil => rfl
  | cons m ms ih =>
    obtain ⟨hm, hms⟩ := List.nodup_cons.1 (List.map_cons ▸ hdistinct)
    have hnone : (inOrder ms).lookup m.1 = none := by
      rw [ih hms, ← Option.not_isSome_iff_eq_none, ← mem_keys_iff]
      exact hm
    rw [Json.lookup_cons, ← ih hms]
    exact Json.lookup_placeMember hnone key

/-! ### Other names -/

section

variable (ρ : ByteString ↪ ByteString)

/-- The keys of an object. -/
def renameKeys : Json → Json
  | .object members => .object (inOrder (members.map fun m => (ρ m.1, m.2)))
  | j => j

/-- The value of `groupInstance`. -/
def renameString : Json → Json
  | .string name => .string (ρ name)
  | j => j

/-- The value of `implementationFromGroup`. -/
def renameGroup : Json → Json
  | .object members => .object (members.map fun m =>
      (m.1, if m.1 = bytes "groupInstance" then renameString ρ m.2 else m.2))
  | j => j

/-- A member of a member of an implementation file. -/
def renameField (key : ByteString) (value : Json) : Json :=
  if key = bytes "implementationFromGroup" then renameGroup ρ value
  else if key = bytes "instanceToInterfaceMap" then renameKeys ρ value
  else value

/-- A member of an implementation file. -/
def renameEntry : Json → Json
  | .object members => .object (members.map fun m => (m.1, renameField ρ m.1 m.2))
  | j => j

/-- The members of an implementation file. -/
def renameMembers (members : List (ByteString × Json)) : List (ByteString × Json) :=
  inOrder (members.map fun m => (ρ m.1, renameEntry ρ m.2))

/-- An implementation file. -/
def renameImplementation : Json → Json
  | .object members => .object (renameMembers ρ members)
  | j => j

/-- A factory creates the same implementations for instances with other names. -/
noncomputable def Implementations.rename {ι κ : Type} (F : Implementations ι κ) :
    Implementations ι κ :=
  { F with createImplementation := fun instanceName =>
      F.createImplementation (Function.invFun ρ instanceName) }

/-- A graph. -/
def ImplementedGraph.rename {ι κ : Type} (g : ImplementedGraph ι κ) : ImplementedGraph ι κ where
  mNodes := g.mNodes.map fun node => { node with instanceName := ρ node.instanceName }
  mInstances := ⟨g.mInstances.entries.map fun entry => ⟨ρ entry.1, entry.2⟩, by
    have hkeys := g.mInstances.nodupKeys
    rw [List.NodupKeys, List.keys] at hkeys ⊢
    rw [List.map_map]
    have hmap := hkeys.map ρ.injective
    rwa [List.map_map] at hmap⟩
  defaultSubgraphContext := g.defaultSubgraphContext
  given := g.given

theorem lookup_map_snd (members : List (ByteString × Json)) (f : ByteString → Json → Json)
    (key : ByteString) :
    (members.map fun m => (m.1, f m.1 m.2)).lookup key = (members.lookup key).map (f key) := by
  induction members with
  | nil => rfl
  | cons m ms ih =>
    rw [List.map_cons, Json.lookup_cons, Json.lookup_cons, ih]
    split_ifs with hkey
    · rw [hkey]
      rfl
    · rfl

theorem lookup_map_fst (members : List (ByteString × Json)) (f : Json → Json) (key : ByteString) :
    (members.map fun m => (ρ m.1, f m.2)).lookup (ρ key) = (members.lookup key).map f := by
  induction members with
  | nil => rfl
  | cons m ms ih =>
    rw [List.map_cons, Json.lookup_cons, Json.lookup_cons, ih]
    simp only [ρ.injective.eq_iff]
    split_ifs <;> rfl

theorem find_renameEntry (entry : Json) (key : ByteString) :
    (renameEntry ρ entry).find key = (entry.find key).map (renameField ρ key) := by
  cases entry with
  | object members => exact lookup_map_snd members (renameField ρ) key
  | _ => rfl

theorem find_renameEntry_of_ne (entry : Json) {key : ByteString}
    (hgroup : key ≠ bytes "implementationFromGroup")
    (hmap : key ≠ bytes "instanceToInterfaceMap") :
    (renameEntry ρ entry).find key = entry.find key := by
  rw [find_renameEntry]
  have hsame : renameField ρ key = id := by
    funext value
    rw [renameField, if_neg hgroup, if_neg hmap]
    rfl
  rw [hsame, Option.map_id_fun, id]

theorem interfaceMap_renameEntry (entry : Json) :
    interfaceMap (renameEntry ρ entry) =
      inOrder ((interfaceMap entry).map fun m => (ρ m.1, m.2)) := by
  rw [interfaceMap, interfaceMap, find_renameEntry]
  cases entry.find (bytes "instanceToInterfaceMap") with
  | none => rfl
  | some j => cases j <;> rfl

theorem instanceOf_rename {ι κ : Type} (g : ImplementedGraph ι κ) (x : ByteString) :
    (g.rename ρ).instanceOf (ρ x) = g.instanceOf x := by
  have hlookup : ∀ entries : List (Sigma fun _ : ByteString => TypedInstance ι κ),
      (entries.map fun entry => (⟨ρ entry.1, entry.2⟩ : Sigma fun _ => TypedInstance ι κ)).dlookup
        (ρ x) = entries.dlookup x := by
    intro entries
    induction entries with
    | nil => rfl
    | cons entry entries ih =>
      obtain ⟨key, inst⟩ := entry
      by_cases hkey : x = key
      · subst hkey
        rw [List.map_cons, List.dlookup_cons_eq, List.dlookup_cons_eq]
      · have hne : ρ x ≠ ρ key := fun heq => hkey (ρ.injective heq)
        rw [List.map_cons, List.dlookup_cons_ne _ _ hne, ih]
        exact (List.dlookup_cons_ne entries ⟨key, inst⟩ hkey).symm
  exact congrArg (Option.getD · g.newInstance) (hlookup g.mInstances.entries)

end

/-! ### What is asked -/

section

variable {ι κ : Type}

/-- The implementation an instance should be given by its member: it is created from the type, or it
is the interface of a group that another member provides. -/
inductive Provides (F : Implementations ι κ) (g : ImplementedGraph ι κ)
    (members : List (ByteString × Json)) : ByteString → ι → Prop
  | type {instanceName : ByteString} {entry : Json} {implementation : ι} :
      (instanceName, entry) ∈ members →
      TypedMember F g.mNodes (g.instanceOf instanceName).mInitParameters instanceName entry
        implementation →
      Provides F g members instanceName implementation
  | fromGroup {instanceName groupInstance groupInterface : ByteString}
      {entry implementationFromGroup : Json} {group implementation : ι} :
      (instanceName, entry) ∈ members → entry.find (bytes "type") = none →
      entry.find (bytes "implementationFromGroup") = some implementationFromGroup →
      implementationFromGroup.find (bytes "groupInstance") = some (.string groupInstance) →
      implementationFromGroup.find (bytes "groupInterface") = some (.string groupInterface) →
      groupInstance ≠ [] → groupInterface ≠ [] → Provides F g members groupInstance group →
      F.isGroup group = true → F.getInterface group groupInterface = some implementation →
      Provides F g members instanceName implementation

/-- The implementation files that should be accepted. -/
structure WellFormed (F : Implementations ι κ) (g : ImplementedGraph ι κ)
    (members : List (ByteString × Json)) : Prop where
  distinct : (members.map Prod.fst).Nodup
  initParameters : ∀ m ∈ members, ∀ j, m.2.find (bytes "initParameters") = some j →
    j.isObject = true
  provided : ∀ m ∈ members, ∃ implementation, Provides F g members m.1 implementation ∧
    MapsInterfaces F implementation m.2

/-- A graph that has been built, and not been implemented. -/
structure Unimplemented (g : ImplementedGraph ι κ) : Prop where
  mTypeName : ∀ x, (g.instanceOf x).mTypeName = []
  implementationOf : ∀ x, g.implementationOf x = none

/-- The instances that the members list, and those that they map. -/
def Listed (members : List (ByteString × Json)) (x : ByteString) : Prop :=
  ∃ m ∈ members, x = m.1 ∨ x ∈ (interfaceMap m.2).map Prod.fst

/-- Whatever the instances are called, the graph is implemented, and the instances are given the
same implementations. -/
def NameIndependent (F : Implementations ι κ) (g : ImplementedGraph ι κ)
    (members : List (ByteString × Json)) : Prop :=
  ∃ assigned : ByteString → Option ι, (∀ x, Listed members x → (assigned x).isSome = true) ∧
    ∀ ρ : ByteString ↪ ByteString, (∀ x, x ≠ [] → ρ x ≠ []) →
      ∃ g', implementDataGraph (F.rename ρ) (g.rename ρ)
          (renameImplementation ρ (.object members)) = .ok g' ∧
        ∀ x, g'.implementationOf (ρ x) = assigned x

/-- The implementation that is created for a member with a type. -/
def created (F : Implementations ι κ) (g : ImplementedGraph ι κ) (m : ByteString × Json) :
    Code ι := do
  let parameters ← parametersWith m.2 (g.instanceOf m.1).mInitParameters
  F.createImplementation m.1 (m.2.stringAt (bytes "type")) parameters

/-- The implementation that a member with a type gives an instance. -/
def gives (F : Implementations ι κ) (g : ImplementedGraph ι κ) (m : ByteString × Json)
    (later : Bool) (x : ByteString) : Option ι :=
  (created F g m).toOption.bind fun implementation => written F implementation m.1 m.2 later x

/-- The contexts that the interfaces of the members are given, member by member. -/
def takenBy (F : Implementations ι κ) (g : ImplementedGraph ι κ)
    (members : List (ByteString × Json)) : List (ι × Option κ) :=
  members.flatMap fun m => (created F g m).toOption.elim [] fun implementation =>
    taken F implementation m.1 m.2 g.contextOf

/-- No member takes its implementation from a group, and no instance is given two different
implementations.  A member that maps its own instance to one of its interfaces finds the interfaces
for the other instances there too, the same ones unless they have members of their own.  Whatever
the instances are called, the interfaces take the contexts that they are given. -/
structure Independent (F : Implementations ι κ) (g : ImplementedGraph ι κ)
    (members : List (ByteString × Json)) : Prop where
  typed : ∀ m ∈ members, (m.2.find (bytes "type")).isSome = true
  agree : ∀ m ∈ members, ∀ m' ∈ members, ∀ x implementation implementation',
    gives F g m false x = some implementation → gives F g m' false x = some implementation' →
    implementation = implementation'
  itself : ∀ m ∈ members, ∀ implementation, created F g m = .ok implementation →
    ServesItself F implementation m.1 m.2
  same : ∀ m ∈ members, ∀ x, x ∉ members.map Prod.fst → gives F g m true x = gives F g m false x
  taken : ∀ ρ : ByteString ↪ ByteString, (∀ x, x ≠ [] → ρ x ≠ []) →
    F.takeAll g.given (takenBy (F.rename ρ) (g.rename ρ) (renameMembers ρ members)) = .ok ()

variable {F : Implementations ι κ} {g : ImplementedGraph ι κ}
  {members : List (ByteString × Json)}

/-! ### The last one decides -/

/-- The implementation that the last member to give one gives. -/
def lastGiven (given : ByteString × Json → Option ι) (members : List (ByteString × Json))
    (before : Option ι) : Option ι :=
  members.foldl (fun implementation m => (given m).or implementation) before

theorem lastGiven_cons (given : ByteString × Json → Option ι) (m : ByteString × Json)
    (ms : List (ByteString × Json)) (before : Option ι) :
    lastGiven given (m :: ms) before = lastGiven given ms ((given m).or before) := rfl

theorem lastGiven_eq_some {given : ByteString × Json → Option ι} {ms : List (ByteString × Json)}
    {before : Option ι} {implementation : ι}
    (hagree : ∀ m ∈ ms, ∀ a, given m = some a → a = implementation)
    (hgiven : before = some implementation ∨ ∃ m ∈ ms, (given m).isSome = true) :
    lastGiven given ms before = some implementation := by
  induction ms generalizing before with
  | nil => exact hgiven.resolve_right fun ⟨m, hm, _⟩ => List.not_mem_nil hm
  | cons m ms ih =>
    obtain ⟨hm, hms⟩ := List.forall_mem_cons.1 hagree
    rw [lastGiven_cons]
    refine ih hms ?_
    cases hgives : given m with
    | some a => exact .inl (by rw [Option.some_or, hm a hgives])
    | none =>
      refine hgiven.imp (fun hbefore => by rw [hbefore, Option.none_or]) ?_
      rintro ⟨m', hm', hsome⟩
      rcases List.mem_cons.1 hm' with rfl | hm'
      · rw [hgives] at hsome
        cases hsome
      · exact ⟨m', hm', hsome⟩

theorem lastGiven_eq_before {given : ByteString × Json → Option ι} {ms : List (ByteString × Json)}
    (h : ∀ m ∈ ms, given m = none) (before : Option ι) :
    lastGiven given ms before = before := by
  induction ms with
  | nil => rfl
  | cons m ms ih =>
    obtain ⟨hm, hms⟩ := List.forall_mem_cons.1 h
    rw [lastGiven_cons, hm, Option.none_or, ih hms]

theorem lastGiven_append (given : ByteString × Json → Option ι) (front : List (ByteString × Json))
    (m : ByteString × Json) (back : List (ByteString × Json)) (before : Option ι) :
    lastGiven given (front ++ m :: back) before =
      lastGiven given back ((given m).or (lastGiven given front before)) :=
  List.foldl_append

/-! ### Members with types -/

theorem created_eq {instanceName : ByteString} {entry : Json} {implementation : ι}
    (h : TypedMember F g.mNodes (g.instanceOf instanceName).mInitParameters instanceName entry
      implementation) : created F g (instanceName, entry) = .ok implementation := by
  obtain ⟨typeName, parameters, -, htype, hparameters, hcreate⟩ := h.created
  rw [created, hparameters]
  dsimp only [bind, Except.bind]
  rw [Json.stringAt_of_find htype, hcreate]

theorem takenBy_cons {instanceName : ByteString} {entry : Json} {implementation : ι}
    (h : TypedMember F g.mNodes (g.instanceOf instanceName).mInitParameters instanceName entry
      implementation) (members : List (ByteString × Json)) :
    takenBy F g ((instanceName, entry) :: members) =
      GraphBuilder.taken F implementation instanceName entry g.contextOf ++
        takenBy F g members := by
  rw [takenBy, List.flatMap_cons, created_eq h]
  rfl

theorem gives_eq {instanceName : ByteString} {entry : Json} {implementation : ι}
    (h : TypedMember F g.mNodes (g.instanceOf instanceName).mInitParameters instanceName entry
      implementation) :
    gives F g (instanceName, entry) = written F implementation instanceName entry := by
  funext later x
  rw [gives, created_eq h]
  rfl

/-- All members have types, their constructors succeed, and so on. -/
def AllTyped (F : Implementations ι κ) (g : ImplementedGraph ι κ)
    (members : List (ByteString × Json)) : Prop :=
  ∀ m ∈ members, ∃ implementation,
    TypedMember F g.mNodes (g.instanceOf m.1).mInitParameters m.1 m.2 implementation

/-- The members that map their own instances serve the others as well. -/
def AllServed (F : Implementations ι κ) (g : ImplementedGraph ι κ)
    (members : List (ByteString × Json)) : Prop :=
  ∀ m ∈ members, ∀ implementation, created F g m = .ok implementation →
    ServesItself F implementation m.1 m.2

theorem WellFormed.allTyped (h : WellFormed F g members)
    (htyped : ∀ m ∈ members, (m.2.find (bytes "type")).isSome = true) : AllTyped F g members := by
  intro m hm
  obtain ⟨implementation, hprovides, -⟩ := h.provided m hm
  cases hprovides with
  | type hentry htyped' =>
    have heq := List.inj_on_of_nodup_map h.distinct hentry hm rfl
    exact ⟨implementation, by rw [← heq]; exact htyped'⟩
  | fromGroup hentry hnone =>
    have heq := List.inj_on_of_nodup_map h.distinct hentry hm rfl
    have hsome := htyped m hm
    rw [← heq, hnone] at hsome
    cases hsome

/-- **Members with types are looked at one after the other**, as long as their interfaces take the
contexts, and the last one to give an instance an implementation decides. -/
theorem foldlM_typed (h : AllTyped F g members) (hserved : AllServed F g members)
    (hsorted : ∀ m ∈ members, ((interfaceMap m.2).map Prod.fst).Pairwise (· < ·))
    (hdistinct : (members.map Prod.fst).Nodup) {s : ImplementedGraph ι κ}
    (hnodes : s.mNodes = g.mNodes) (hcontexts : s.contextOf = g.contextOf)
    (hpending : ∀ m ∈ members, (s.instanceOf m.1).mTypeName = [] ∧
      (s.instanceOf m.1).mInitParameters = (g.instanceOf m.1).mInitParameters) :
    ∃ s', members.foldlM (implementInstance F) s =
        (F.takeAll s.given (takenBy F g members)).map (fun _ => s') ∧
      ∀ x, s'.implementationOf x =
        lastGiven (fun m => gives F g m (m.1 < x) x) members (s.implementationOf x) := by
  induction members generalizing s with
  | nil => exact ⟨s, rfl, fun x => rfl⟩
  | cons m members ih =>
    obtain ⟨instanceName, entry⟩ := m
    obtain ⟨⟨implementation, htyped⟩, hrest⟩ := List.forall_mem_cons.1 h
    obtain ⟨hitself, hserved⟩ := List.forall_mem_cons.1 hserved
    obtain ⟨hkeys, hsorted⟩ := List.forall_mem_cons.1 hsorted
    obtain ⟨hname, hnames⟩ := List.nodup_cons.1 (List.map_cons ▸ hdistinct)
    obtain ⟨⟨hnew, hparameters⟩, hpendings⟩ := List.forall_mem_cons.1 hpending
    obtain ⟨s₁, hone, hwritten⟩ :=
      @implementInstance_typed _ _ F s instanceName entry implementation
        (by rw [hnodes, hparameters]; exact htyped) hnew
        (hitself implementation (created_eq htyped)) hkeys
    have hother : ∀ m ∈ members, m.1 ≠ instanceName := fun m hm heq =>
      hname (List.mem_map.2 ⟨m, hm, heq⟩)
    obtain ⟨s', hall, himplementations⟩ := ih hrest hserved hsorted hnames
      (hwritten.mNodes.trans hnodes) (hwritten.contextOf.trans hcontexts) fun m hm => by
        rw [hwritten.mTypeName m.1 (hother m hm), hwritten.mInitParameters m.1 (hother m hm)]
        exact hpendings m hm
    refine ⟨s', ?_, fun x => ?_⟩
    · rw [List.foldlM_cons, takenBy_cons htyped, ← hcontexts]
      refine takeAll_bind F hone ?_
      rw [hall, hwritten.given]
    · rw [himplementations, hwritten.implementationOf, ← gives_eq htyped]
      rfl

/-! ### Members with other names -/

section

variable (ρ : ByteString ↪ ByteString)

theorem nodup_rename {α : Type} {ms : List (ByteString × α)} (h : (ms.map Prod.fst).Nodup)
    {β : Type} (f : α → β) : ((ms.map fun m => (ρ m.1, f m.2)).map Prod.fst).Nodup := by
  rw [List.map_map]
  have hmap := h.map ρ.injective
  rwa [List.map_map] at hmap

theorem mem_renameMembers {m' : ByteString × Json} :
    m' ∈ renameMembers ρ members ↔ ∃ m ∈ members, (ρ m.1, renameEntry ρ m.2) = m' := by
  rw [renameMembers, (inOrder_perm _).mem_iff, List.mem_map]

theorem nodup_renameMembers (h : (members.map Prod.fst).Nodup) :
    ((renameMembers ρ members).map Prod.fst).Nodup :=
  ((inOrder_perm _).map Prod.fst).nodup_iff.2 (nodup_rename ρ h (renameEntry ρ))

theorem mem_interfaceMap_rename {entry : Json} {y : ByteString} :
    y ∈ (interfaceMap (renameEntry ρ entry)).map Prod.fst ↔
      ∃ x ∈ (interfaceMap entry).map Prod.fst, ρ x = y := by
  rw [interfaceMap_renameEntry, ((inOrder_perm _).map Prod.fst).mem_iff, List.map_map]
  simp only [List.mem_map, Function.comp_apply]
  constructor
  · rintro ⟨m, hm, rfl⟩
    exact ⟨m.1, ⟨m, hm, rfl⟩, rfl⟩
  · rintro ⟨x, ⟨m, hm, rfl⟩, rfl⟩
    exact ⟨m, hm, rfl⟩

theorem lookup_interfaceMap_rename {entry : Json}
    (hdistinct : ((interfaceMap entry).map Prod.fst).Nodup) (x : ByteString) :
    (interfaceMap (renameEntry ρ entry)).lookup (ρ x) = (interfaceMap entry).lookup x := by
  have hlookup := lookup_map_fst ρ (interfaceMap entry) id x
  rw [Option.map_id_fun] at hlookup
  rw [interfaceMap_renameEntry]
  exact (lookup_inOrder (nodup_rename ρ hdistinct id) (ρ x)).trans hlookup

theorem mappedInterface_rename {entry : Json}
    (hdistinct : ((interfaceMap entry).map Prod.fst).Nodup) (group : ι) (x : ByteString) :
    mappedInterface (F.rename ρ) group (renameEntry ρ entry) (ρ x) =
      mappedInterface F group entry x := by
  rw [mappedInterface, lookup_interfaceMap_rename ρ hdistinct]
  rfl

theorem hasInterface_rename {entry : Json}
    (hdistinct : ((interfaceMap entry).map Prod.fst).Nodup) (group : ι) (x : ByteString) :
    HasInterface (F.rename ρ) group (renameEntry ρ entry) (ρ x) ↔
      HasInterface F group entry x := by
  constructor
  · rintro ⟨hgroup, hnamed⟩
    rw [lookup_interfaceMap_rename ρ hdistinct] at hnamed
    exact ⟨hgroup, hnamed⟩
  · rintro ⟨hgroup, hnamed⟩
    rw [← lookup_interfaceMap_rename ρ hdistinct] at hnamed
    exact ⟨hgroup, hnamed⟩

theorem written_rename {implementation : ι} {instanceName : ByteString} {entry : Json}
    (hdistinct : ((interfaceMap entry).map Prod.fst).Nodup) (later : Bool) (x : ByteString) :
    written (F.rename ρ) implementation (ρ instanceName) (renameEntry ρ entry) later (ρ x) =
      written F implementation instanceName entry later x := by
  rw [written, written, askedGroup, askedGroup, mappedInterface_rename ρ hdistinct,
    mappedInterface_rename ρ hdistinct]
  simp only [ρ.injective.eq_iff]

theorem parametersWith_rename (entry old : Json) :
    parametersWith (renameEntry ρ entry) old = parametersWith entry old := by
  rw [parametersWith, parametersWith, find_renameEntry_of_ne ρ entry (by decide) (by decide)]

theorem createImplementation_rename (instanceName : ByteString) :
    (F.rename ρ).createImplementation (ρ instanceName) = F.createImplementation instanceName :=
  congrArg F.createImplementation (Function.leftInverse_invFun ρ.injective instanceName)

/-- Contexts are taken by objects, whatever the instances are called. -/
theorem takeAll_rename (given more : List (ι × Option κ)) :
    (F.rename ρ).takeAll given more = F.takeAll given more := by
  induction more generalizing given with
  | nil => rfl
  | cons taking more ih => exact congrArg _ (funext fun _ => ih _)

theorem created_rename (m : ByteString × Json) :
    created (F.rename ρ) (g.rename ρ) (ρ m.1, renameEntry ρ m.2) = created F g m := by
  rw [created, created, instanceOf_rename, parametersWith_rename, createImplementation_rename,
    Json.stringAt, find_renameEntry_of_ne ρ m.2 (by decide) (by decide)]
  rfl

theorem gives_rename {m : ByteString × Json}
    (hdistinct : ((interfaceMap m.2).map Prod.fst).Nodup) (later : Bool) (x : ByteString) :
    gives (F.rename ρ) (g.rename ρ) (ρ m.1, renameEntry ρ m.2) later (ρ x) =
      gives F g m later x := by
  simp only [gives, created_rename, written_rename ρ hdistinct]

theorem GraphBuilder.MapsInterfaces.rename {group : ι} {entry : Json}
    (h : MapsInterfaces F group entry) :
    MapsInterfaces (F.rename ρ) group (renameEntry ρ entry) where
  isObject j hj := by
    rw [find_renameEntry] at hj
    obtain ⟨j', hj', rfl⟩ := Option.map_eq_some_iff.1 hj
    obtain ⟨members, rfl⟩ := Json.isObject_iff.1 (h.isObject j' hj')
    rfl
  has y hy := by
    obtain ⟨x, hx, rfl⟩ := (mem_interfaceMap_rename ρ).1 hy
    exact (hasInterface_rename ρ h.distinct group x).2 (h.has x hx)
  distinct := by
    rw [interfaceMap_renameEntry]
    exact ((inOrder_perm _).map Prod.fst).nodup_iff.2 (nodup_rename ρ h.distinct id)

theorem GraphBuilder.TypedMember.rename {mNodes : List ArchitectureNode} {old : Json}
    {implementation : ι} {instanceName : ByteString} {entry : Json}
    (h : TypedMember F mNodes old instanceName entry implementation) :
    TypedMember (F.rename ρ)
      (mNodes.map fun node => { node with instanceName := ρ node.instanceName }) old
      (ρ instanceName) (renameEntry ρ entry) implementation where
  isObject := by
    rw [find_renameEntry_of_ne ρ entry (by decide) (by decide)]
    exact h.isObject
  created := by
    rw [find_renameEntry_of_ne ρ entry (by decide) (by decide), parametersWith_rename,
      createImplementation_rename]
    exact h.created
  serves node' hnode' hname := by
    obtain ⟨node, hnode, rfl⟩ := List.mem_map.1 hnode'
    obtain ⟨hincoming, houtgoing⟩ := h.serves node hnode (ρ.injective hname)
    exact ⟨hincoming, houtgoing⟩
  maps := h.maps.rename ρ

theorem AllTyped.distinct (h : AllTyped F g members) :
    ∀ m ∈ members, ((interfaceMap m.2).map Prod.fst).Nodup := by
  intro m hm
  obtain ⟨implementation, htyped⟩ := h m hm
  exact htyped.maps.distinct

theorem AllTyped.rename (h : AllTyped F g members) :
    AllTyped (F.rename ρ) (g.rename ρ) (renameMembers ρ members) := by
  intro m' hm'
  obtain ⟨m, hm, rfl⟩ := (mem_renameMembers ρ).1 hm'
  obtain ⟨implementation, htyped⟩ := h m hm
  refine ⟨implementation, ?_⟩
  rw [instanceOf_rename]
  exact htyped.rename ρ

theorem AllServed.rename (h : AllServed F g members) (htyped : AllTyped F g members) :
    AllServed (F.rename ρ) (g.rename ρ) (renameMembers ρ members) := by
  intro m' hm' implementation hcreated own hown y hy hne
  obtain ⟨m, hm, rfl⟩ := (mem_renameMembers ρ).1 hm'
  have hdistinct := htyped.distinct m hm
  obtain ⟨x, hx, rfl⟩ := (mem_interfaceMap_rename ρ).1 hy
  rw [created_rename] at hcreated
  rw [mappedInterface_rename ρ hdistinct] at hown
  exact (hasInterface_rename ρ hdistinct own x).2
    (h m hm implementation hcreated own hown x hx fun heq => hne (congrArg ρ heq))

/-- The keys of the maps are in order when the names are changed. -/
theorem AllTyped.sorted (h : AllTyped F g members) : ∀ m' ∈ renameMembers ρ members,
    ((interfaceMap m'.2).map Prod.fst).Pairwise (· < ·) := by
  intro m' hm'
  obtain ⟨m, hm, rfl⟩ := (mem_renameMembers ρ).1 hm'
  rw [interfaceMap_renameEntry]
  exact inOrder_strict (nodup_rename ρ (h.distinct m hm) id)

/-- A file whose members have types is accepted under all names under which the interfaces take the
contexts. -/
theorem implementDataGraph_rename (hg : Unimplemented g) (h : AllTyped F g members)
    (hserved : AllServed F g members) (hdistinct : (members.map Prod.fst).Nodup) :
    ∃ g', implementDataGraph (F.rename ρ) (g.rename ρ)
        (renameImplementation ρ (.object members)) =
          (F.takeAll g.given (takenBy (F.rename ρ) (g.rename ρ) (renameMembers ρ members))).map
            (fun _ => g') ∧
      ∀ x, g'.implementationOf (ρ x) =
        lastGiven (fun m => gives (F.rename ρ) (g.rename ρ) m (m.1 < ρ x) (ρ x))
          (renameMembers ρ members) none := by
  obtain ⟨g', hall, himplementations⟩ :=
    foldlM_typed (h.rename ρ) (hserved.rename ρ h) (h.sorted ρ) (nodup_renameMembers ρ hdistinct)
      rfl rfl fun m' hm' => by
        obtain ⟨m, -, rfl⟩ := (mem_renameMembers ρ).1 hm'
        rw [instanceOf_rename]
        exact ⟨hg.mTypeName m.1, rfl⟩
  rw [takeAll_rename] at hall
  refine ⟨g', hall, fun x => ?_⟩
  rw [himplementations, ImplementedGraph.implementationOf, instanceOf_rename]
  exact congrArg _ (hg.implementationOf x)

end

/-! ### The first member -/

theorem mImplementation_insertInitParameters {inst inst' : TypedInstance ι κ}
    {initParameters : Json} (h : inst.insertInitParameters initParameters = .ok inst') :
    inst'.mImplementation = inst.mImplementation := by
  rw [TypedInstance.insertInitParameters] at h
  split_ifs at h
  · obtain rfl := Except.ok.inj h
    rfl
  · obtain ⟨mInitParameters, -, hinst⟩ := bind_eq_ok.1 h
    obtain rfl := Except.ok.inj hinst
    rfl

theorem implementationOf_insertInitParameters {g₁ : ImplementedGraph ι κ}
    {instanceName : ByteString} {entry : Json}
    (h : insertInitParameters g instanceName entry = .ok g₁) (x : ByteString) :
    g₁.implementationOf x = g.implementationOf x := by
  rw [insertInitParameters] at h
  split at h
  · obtain rfl := Except.ok.inj h
    rfl
  · split_ifs at h with hobject
    · rw [ImplementedGraph.insertInstanceInitParameters, if_pos hobject] at h
      obtain ⟨g', hget, -, -, hinstances⟩ :=
        ImplementedGraph.getOrCreateInstance_spec g instanceName
      rw [hget] at h
      obtain ⟨inst, hinst, hwrite⟩ := bind_eq_ok.1 h
      obtain rfl := Except.ok.inj hwrite
      rw [ImplementedGraph.implementationOf, ImplementedGraph.instanceOf_write, hinstances]
      by_cases hx : x = instanceName
      · rw [hx, Function.update_self]
        exact mImplementation_insertInitParameters hinst
      · rw [Function.update_of_ne hx]
        rfl
    · cases h

/-- A group that is not implemented yet has no interfaces. -/
theorem setInstanceImplementationToGroupInterface_none
    {instanceName groupInstanceName groupInterfaceName : ByteString}
    (h : g.implementationOf groupInstanceName = none) (g' : ImplementedGraph ι κ) :
    g.setInstanceImplementationToGroupInterface F instanceName groupInstanceName
      groupInterfaceName ≠ .ok g' := by
  intro hok
  rw [ImplementedGraph.implementationOf, ImplementedGraph.instanceOf] at h
  rw [ImplementedGraph.setInstanceImplementationToGroupInterface] at hok
  cases hlookup : g.mInstances.lookup groupInstanceName with
  | none =>
    rw [hlookup] at hok
    cases hok
  | some groupInstance =>
    rw [hlookup, Option.getD_some] at h
    simp only [hlookup, h] at hok
    cases hok

/-- **The first member must have a type**, since no group is implemented yet. -/
theorem implementInstance_first {instanceName : ByteString} {entry : Json}
    (hnone : entry.find (bytes "type") = none) (h : ∀ x, g.implementationOf x = none)
    (g' : ImplementedGraph ι κ) : implementInstance F g (instanceName, entry) ≠ .ok g' := by
  intro hok
  obtain ⟨g₁, hinsert, hok⟩ := bind_eq_ok.1 hok
  obtain ⟨g₂, hset, -⟩ := bind_eq_ok.1 hok
  rw [setImplementation, hnone, Option.isSome_none, if_neg Bool.false_ne_true] at hset
  split_ifs at hset
  · obtain ⟨implementationFromGroup, -, hset⟩ := bind_eq_ok.1 hset
    obtain ⟨groupInstance, -, hset⟩ := bind_eq_ok.1 hset
    obtain ⟨groupInterface, -, hset⟩ := bind_eq_ok.1 hset
    exact setInstanceImplementationToGroupInterface_none
      ((implementationOf_insertInitParameters hinsert groupInstance).trans (h groupInstance)) _ hset
  · cases hset

/-! ### Putting a member first or last -/

theorem renameMembers_split (ρ : ByteString ↪ ByteString) (hdistinct : (members.map Prod.fst).Nodup)
    {m : ByteString × Json} (hm : m ∈ members) :
    ∃ front back, renameMembers ρ members = front ++ (ρ m.1, renameEntry ρ m.2) :: back ∧
      (∀ m' ∈ front, m'.1 < ρ m.1) ∧ ∀ m' ∈ back, ρ m.1 < m'.1 := by
  obtain ⟨front, back, hsplit⟩ := List.append_of_mem ((mem_renameMembers ρ).2 ⟨m, hm, rfl⟩)
  have hsorted : ((renameMembers ρ members).map Prod.fst).Pairwise (· < ·) :=
    inOrder_strict (nodup_rename ρ hdistinct (renameEntry ρ))
  rw [hsplit, List.map_append, List.map_cons] at hsorted
  obtain ⟨hbefore, hafter, -⟩ := around_of_sorted hsorted
  exact ⟨front, back, hsplit, fun m' hm' => hbefore _ (List.mem_map_of_mem hm'),
    fun m' hm' => hafter _ (List.mem_map_of_mem hm')⟩

theorem renameMembers_first {ρ : ByteString ↪ ByteString}
    (hdistinct : (members.map Prod.fst).Nodup) {m : ByteString × Json} (hm : m ∈ members)
    (hleast : ∀ m' ∈ members, m'.1 ≠ m.1 → ρ m.1 < ρ m'.1) :
    ∃ back, renameMembers ρ members = (ρ m.1, renameEntry ρ m.2) :: back := by
  obtain ⟨front, back, hsplit, hbefore, -⟩ := renameMembers_split ρ hdistinct hm
  cases front with
  | nil => exact ⟨back, hsplit⟩
  | cons m' front =>
    have hmem : m' ∈ renameMembers ρ members := by
      rw [hsplit]
      exact List.mem_cons_self
    obtain ⟨m₀, hm₀, rfl⟩ := (mem_renameMembers ρ).1 hmem
    have hlt := hbefore _ List.mem_cons_self
    have hne : m₀.1 ≠ m.1 := fun heq => List.lt_irrefl _ (heq ▸ hlt)
    exact absurd (hleast m₀ hm₀ hne) (List.lt_asymm hlt)

theorem renameMembers_last {ρ : ByteString ↪ ByteString}
    (hdistinct : (members.map Prod.fst).Nodup) {m : ByteString × Json} (hm : m ∈ members)
    (hgreatest : ∀ m' ∈ members, m'.1 ≠ m.1 → ρ m'.1 < ρ m.1) :
    ∃ front, renameMembers ρ members = front ++ [(ρ m.1, renameEntry ρ m.2)] := by
  obtain ⟨front, back, hsplit, -, hafter⟩ := renameMembers_split ρ hdistinct hm
  cases back with
  | nil => exact ⟨front, hsplit⟩
  | cons m' back =>
    have hmem : m' ∈ renameMembers ρ members := by
      rw [hsplit]
      exact List.mem_append_right _ (List.mem_cons_of_mem _ List.mem_cons_self)
    obtain ⟨m₀, hm₀, rfl⟩ := (mem_renameMembers ρ).1 hmem
    have hlt := hafter _ List.mem_cons_self
    have hne : m₀.1 ≠ m.1 := fun heq => List.lt_irrefl _ (heq ▸ hlt)
    exact absurd (hgreatest m₀ hm₀ hne) (List.lt_asymm hlt)

/-- Names in the order of their ranks. -/
def ranked (rank : ByteString → UInt8) : ByteString ↪ ByteString :=
  ⟨fun x => rank x :: x, fun _ _ h => (List.cons.inj h).2⟩

theorem ranked_ne_nil (rank : ByteString → UInt8) (x : ByteString) : ranked rank x ≠ [] :=
  List.cons_ne_nil _ _

theorem ranked_lt {rank : ByteString → UInt8} {x y : ByteString} (h : rank x < rank y) :
    ranked rank x < ranked rank y := List.Lex.rel h

/-! ### What name independence needs -/

theorem Unimplemented.implementationOf_rename (hg : Unimplemented g) (ρ : ByteString ↪ ByteString)
    (y : ByteString) : (g.rename ρ).implementationOf y = none := by
  cases hlookup : (g.rename ρ).mInstances.lookup y with
  | none =>
    rw [ImplementedGraph.implementationOf, ImplementedGraph.instanceOf, hlookup]
    rfl
  | some inst =>
    obtain ⟨entry, -, heq⟩ := List.mem_map.1 (AList.mem_lookup_iff.1 hlookup)
    obtain rfl : ρ entry.1 = y := congrArg Sigma.fst heq
    rw [ImplementedGraph.implementationOf, instanceOf_rename]
    exact hg.implementationOf entry.1

/-- Under names that put a member first, it is implemented in the graph as it was built. -/
theorem NameIndependent.first (h : NameIndependent F g members)
    (hdistinct : (members.map Prod.fst).Nodup) {m : ByteString × Json} (hm : m ∈ members)
    {rank : ByteString → UInt8} (hrank : ∀ m' ∈ members, m'.1 ≠ m.1 → rank m.1 < rank m'.1) :
    ∃ g₁, implementInstance (F.rename (ranked rank)) (g.rename (ranked rank))
      (ranked rank m.1, renameEntry (ranked rank) m.2) = .ok g₁ := by
  obtain ⟨assigned, -, hrename⟩ := h
  obtain ⟨g', hok, -⟩ := hrename (ranked rank) fun x _ => ranked_ne_nil rank x
  obtain ⟨back, hfirst⟩ :=
    renameMembers_first hdistinct hm fun m' hm' hne => ranked_lt (hrank m' hm' hne)
  have hok : (renameMembers (ranked rank) members).foldlM
    (implementInstance (F.rename (ranked rank))) (g.rename (ranked rank)) = .ok g' := hok
  rw [hfirst, List.foldlM_cons] at hok
  obtain ⟨g₁, hone, -⟩ := bind_eq_ok.1 hok
  exact ⟨g₁, hone⟩

/-- The rank of one instance, and the rank of the others. -/
def rankOf (instanceName : ByteString) (one others : UInt8) (x : ByteString) : UInt8 :=
  if x = instanceName then one else others

theorem rankOf_self (instanceName : ByteString) (one others : UInt8) :
    rankOf instanceName one others instanceName = one := if_pos rfl

theorem rankOf_of_ne {instanceName x : ByteString} (h : x ≠ instanceName) (one others : UInt8) :
    rankOf instanceName one others x = others := if_neg h

theorem NameIndependent.typed (hg : Unimplemented g) (hdistinct : (members.map Prod.fst).Nodup)
    (h : NameIndependent F g members) :
    ∀ m ∈ members, (m.2.find (bytes "type")).isSome = true := by
  intro m hm
  by_contra hnone
  rw [Option.not_isSome_iff_eq_none] at hnone
  obtain ⟨g₁, hone⟩ := @NameIndependent.first _ _ F g members h hdistinct m hm (rankOf m.1 0 1)
    fun m' _ hne => by
      rw [rankOf_self, rankOf_of_ne hne]
      decide
  refine implementInstance_first ?_ (hg.implementationOf_rename _) g₁ hone
  rw [find_renameEntry_of_ne _ m.2 (by decide) (by decide), hnone]

theorem NameIndependent.itself (hg : Unimplemented g) (hdistinct : (members.map Prod.fst).Nodup)
    (htyped : AllTyped F g members) (h : NameIndependent F g members) : AllServed F g members := by
  intro m hm implementation hcreated own hown x hx hne
  obtain ⟨implementation', hmember⟩ := htyped m hm
  obtain rfl := Except.ok.inj (hcreated.symm.trans (created_eq hmember))
  have hfirst : ∀ y, y ≠ m.1 → rankOf m.1 0 1 m.1 < rankOf m.1 0 1 y := fun y hy => by
    rw [rankOf_self, rankOf_of_ne hy]
    decide
  obtain ⟨g₁, hone⟩ := h.first hdistinct hm fun m' _ => hfirst m'.1
  have hkeys := hmember.maps.distinct
  have hrenamed := hmember.rename (ranked (rankOf m.1 0 1))
  rw [← instanceOf_rename (ranked (rankOf m.1 0 1))] at hrenamed
  refine (hasInterface_rename (ranked (rankOf m.1 0 1)) hkeys own x).1
    (hasInterface_of_implementInstance_ok hrenamed ?_ ?_ hone ?_ _ ?_ (ranked_lt (hfirst x hne)))
  · rw [instanceOf_rename]
    exact hg.mTypeName m.1
  · exact htyped.sorted _ _ ((mem_renameMembers _).2 ⟨m, hm, rfl⟩)
  · rw [mappedInterface_rename _ hkeys, hown]
  · exact (mem_interfaceMap_rename _).2 ⟨x, hx, rfl⟩

/-- Under names that put a member last, the instances have what it gives them. -/
theorem gives_of_last (hg : Unimplemented g) (htyped : AllTyped F g members)
    (hserved : AllServed F g members) (hdistinct : (members.map Prod.fst).Nodup)
    {assigned : ByteString → Option ι}
    (h : ∀ ρ : ByteString ↪ ByteString, (∀ x, x ≠ [] → ρ x ≠ []) →
      ∃ g', implementDataGraph (F.rename ρ) (g.rename ρ)
          (renameImplementation ρ (.object members)) = .ok g' ∧
        ∀ x, g'.implementationOf (ρ x) = assigned x)
    {m : ByteString × Json} (hm : m ∈ members) {rank : ByteString → UInt8}
    (hrank : ∀ m' ∈ members, m'.1 ≠ m.1 → rank m'.1 < rank m.1) {x : ByteString}
    {implementation : ι}
    (hgives : gives F g m (ranked rank m.1 < ranked rank x) x = some implementation) :
    assigned x = some implementation := by
  obtain ⟨front, hlast⟩ :=
    renameMembers_last hdistinct hm fun m' hm' hne => ranked_lt (hrank m' hm' hne)
  obtain ⟨g', hok, hassigned⟩ := h (ranked rank) fun x _ => ranked_ne_nil rank x
  obtain ⟨g'', hok', himplementations⟩ :=
    implementDataGraph_rename (ranked rank) hg htyped hserved hdistinct
  obtain ⟨-, rfl⟩ := eq_of_takeAll F (hok'.symm.trans hok)
  rw [← hassigned, himplementations, hlast, lastGiven_append,
    gives_rename _ (htyped.distinct m hm), hgives]
  rfl

theorem NameIndependent.agree (hg : Unimplemented g) (htyped : AllTyped F g members)
    (hdistinct : (members.map Prod.fst).Nodup) (h : NameIndependent F g members) :
    ∀ m ∈ members, ∀ m' ∈ members, ∀ x implementation implementation',
      gives F g m false x = some implementation → gives F g m' false x = some implementation' →
      implementation = implementation' := by
  have hserved := h.itself hg hdistinct htyped
  obtain ⟨assigned, -, hrename⟩ := h
  have hassigned : ∀ m ∈ members, ∀ x implementation,
      gives F g m false x = some implementation → assigned x = some implementation := by
    intro m hm x implementation hgives
    -- The instance of the last member comes after all other instances.
    refine @gives_of_last _ _ F g members hg htyped hserved hdistinct assigned hrename m hm
      (rankOf m.1 2 1) (fun m' _ hne => ?_) x implementation ?_
    · rw [rankOf_self, rankOf_of_ne hne]
      decide
    · have hnot : ¬ ranked (rankOf m.1 2 1) m.1 < ranked (rankOf m.1 2 1) x := by
        by_cases hx : x = m.1
        · rw [hx]
          exact List.lt_irrefl _
        · refine List.lt_asymm (ranked_lt ?_)
          rw [rankOf_self, rankOf_of_ne hx]
          decide
      rw [decide_eq_false hnot]
      exact hgives
  intro m hm m' hm' x implementation implementation' hgives hgives'
  exact Option.some.inj ((hassigned m hm x implementation hgives).symm.trans
    (hassigned m' hm' x implementation' hgives'))

theorem written_of_not_mem (implementation : ι) {instanceName x : ByteString} {entry : Json}
    (hx : x ∉ (interfaceMap entry).map Prod.fst) (later : Bool) :
    written F implementation instanceName entry later x =
      if x = instanceName then some implementation else none := by
  rw [written, mappedInterface_of_not_mem _ hx, Option.none_or]

theorem isSome_written {implementation : ι} {instanceName x : ByteString} {entry : Json}
    (hmaps : MapsInterfaces F implementation entry)
    (hitself : ServesItself F implementation instanceName entry)
    (hx : x ∈ (interfaceMap entry).map Prod.fst) (hne : x ≠ instanceName) (later : Bool) :
    (written F implementation instanceName entry later x).isSome = true := by
  have hasked : HasInterface F (askedGroup F implementation instanceName entry later) entry x :=
    hmaps.asked hitself hx fun _ => hne
  rw [written, Option.isSome_or, hasked.isSome, Bool.true_or]

theorem NameIndependent.same (hg : Unimplemented g) (htyped : AllTyped F g members)
    (hdistinct : (members.map Prod.fst).Nodup) (h : NameIndependent F g members) :
    ∀ m ∈ members, ∀ x, x ∉ members.map Prod.fst → gives F g m true x = gives F g m false x := by
  have hserved := h.itself hg hdistinct htyped
  obtain ⟨assigned, -, hrename⟩ := h
  intro m hm x hunlisted
  obtain ⟨implementation, hmember⟩ := htyped m hm
  have hne : x ≠ m.1 := fun heq => hunlisted (heq ▸ List.mem_map_of_mem hm)
  have hothers : ∀ m' ∈ members, m'.1 ≠ x := fun m' hm' heq =>
    hunlisted (heq ▸ List.mem_map_of_mem hm')
  by_cases hx : x ∈ (interfaceMap m.2).map Prod.fst
  · have hassigned : ∀ later : Bool, assigned x = gives F g m later x := by
      intro later
      obtain ⟨a, ha⟩ : ∃ a, gives F g m later x = some a := by
        rw [gives_eq hmember]
        exact Option.isSome_iff_exists.1 (isSome_written hmember.maps
          (hserved m hm implementation (created_eq hmember)) hx hne later)
      -- The mapped instance comes after the last member's instance, or before it.
      let rank : ByteString → UInt8 :=
        fun y => if y = x then (if later then 3 else 0) else rankOf m.1 2 1 y
      have hlast : rank m.1 = 2 := (if_neg hne.symm).trans (rankOf_self _ _ _)
      have hmapped : rank x = if later then 3 else 0 := if_pos rfl
      rw [ha]
      refine @gives_of_last _ _ F g members hg htyped hserved hdistinct assigned hrename m hm rank
        (fun m' hm' hne' => ?_) x a ?_
      · rw [hlast, show rank m'.1 = 1 from
          (if_neg (hothers m' hm')).trans (rankOf_of_ne hne' _ _)]
        decide
      · cases later with
        | true =>
          rw [decide_eq_true (ranked_lt (by rw [hlast, hmapped]; decide))]
          exact ha
        | false =>
          rw [decide_eq_false (List.lt_asymm (ranked_lt (by rw [hlast, hmapped]; decide)))]
          exact ha
    exact (hassigned true).symm.trans (hassigned false)
  · rw [gives_eq hmember, written_of_not_mem implementation hx,
      written_of_not_mem implementation hx]

theorem NameIndependent.taken (hg : Unimplemented g) (htyped : AllTyped F g members)
    (hdistinct : (members.map Prod.fst).Nodup) (h : NameIndependent F g members)
    (ρ : ByteString ↪ ByteString) (hρ : ∀ x, x ≠ [] → ρ x ≠ []) :
    F.takeAll g.given (takenBy (F.rename ρ) (g.rename ρ) (renameMembers ρ members)) = .ok () := by
  have hserved := h.itself hg hdistinct htyped
  obtain ⟨assigned, -, hrename⟩ := h
  obtain ⟨g', hok, -⟩ := hrename ρ hρ
  obtain ⟨g'', hok', -⟩ := implementDataGraph_rename ρ hg htyped hserved hdistinct
  exact (eq_of_takeAll F (hok'.symm.trans hok)).1

/-! ### The names of instances -/

theorem isSome_gives (h : AllTyped F g members) {m : ByteString × Json} (hm : m ∈ members)
    {x : ByteString} (hx : x = m.1 ∨ x ∈ (interfaceMap m.2).map Prod.fst) :
    (gives F g m false x).isSome = true := by
  obtain ⟨implementation, hmember⟩ := h m hm
  rw [gives_eq hmember, written, Option.isSome_or]
  rcases hx with rfl | hx
  · rw [if_pos rfl, Option.isSome_some, Bool.or_true]
  · rw [askedGroup, if_neg Bool.false_ne_true, (hmember.maps.has x hx).isSome, Bool.true_or]

theorem Independent.lastGiven_eq (h : Independent F g members) {m : ByteString × Json}
    (hm : m ∈ members) {x : ByteString} {implementation : ι}
    (hgives : gives F g m false x = some implementation) :
    lastGiven (fun m => gives F g m false x) members none = some implementation :=
  lastGiven_eq_some
    (fun m' hm' a ha => h.agree m' hm' m hm x a implementation ha hgives)
    (.inr ⟨m, hm, Option.isSome_of_eq_some hgives⟩)

/-- An instance with a member of its own is given no other interface after it. -/
theorem Independent.lastGiven_listed (htyped : AllTyped F g members)
    (hdistinct : (members.map Prod.fst).Nodup) (h : Independent F g members)
    (ρ : ByteString ↪ ByteString) {m : ByteString × Json} (hm : m ∈ members) :
    lastGiven (fun m' => gives (F.rename ρ) (g.rename ρ) m' (m'.1 < ρ m.1) (ρ m.1))
        (renameMembers ρ members) none =
      lastGiven (fun m' => gives F g m' false m.1) members none := by
  obtain ⟨implementation, hgives⟩ :=
    Option.isSome_iff_exists.1 (isSome_gives htyped hm (.inl rfl))
  obtain ⟨front, back, hsplit, -, hafter⟩ := renameMembers_split ρ hdistinct hm
  rw [h.lastGiven_eq hm hgives, hsplit, lastGiven_append, decide_eq_false (List.lt_irrefl _),
    gives_rename ρ (htyped.distinct m hm), hgives, Option.some_or]
  refine lastGiven_eq_some (fun m' hm' a ha => ?_) (.inl rfl)
  have hmem : m' ∈ renameMembers ρ members := by
    rw [hsplit]
    exact List.mem_append_right _ (List.mem_cons_of_mem _ hm')
  rw [decide_eq_false (List.lt_asymm (hafter m' hm'))] at ha
  obtain ⟨m₀, hm₀, rfl⟩ := (mem_renameMembers ρ).1 hmem
  rw [gives_rename ρ (htyped.distinct m₀ hm₀)] at ha
  exact h.agree m₀ hm₀ m hm m.1 a implementation ha hgives

/-- For an instance without a member the order makes no difference. -/
theorem Independent.lastGiven_unlisted (htyped : AllTyped F g members)
    (h : Independent F g members) (ρ : ByteString ↪ ByteString) {x : ByteString}
    (hunlisted : x ∉ members.map Prod.fst) :
    lastGiven (fun m => gives (F.rename ρ) (g.rename ρ) m (m.1 < ρ x) (ρ x))
        (renameMembers ρ members) none =
      lastGiven (fun m => gives F g m false x) members none := by
  have hrenamed : ∀ m ∈ members,
      gives (F.rename ρ) (g.rename ρ) (ρ m.1, renameEntry ρ m.2) (ρ m.1 < ρ x) (ρ x) =
        gives F g m false x := by
    intro m hm
    rw [gives_rename ρ (htyped.distinct m hm)]
    cases decide (ρ m.1 < ρ x) with
    | true => exact h.same m hm x hunlisted
    | false => rfl
  by_cases hgiven : ∃ m ∈ members, (gives F g m false x).isSome = true
  · obtain ⟨m, hm, hsome⟩ := hgiven
    obtain ⟨implementation, hgives⟩ := Option.isSome_iff_exists.1 hsome
    rw [h.lastGiven_eq hm hgives]
    refine lastGiven_eq_some (fun m' hm' a ha => ?_)
      (.inr ⟨_, (mem_renameMembers ρ).2 ⟨m, hm, rfl⟩, by rw [hrenamed m hm, hsome]⟩)
    obtain ⟨m₀, hm₀, rfl⟩ := (mem_renameMembers ρ).1 hm'
    rw [hrenamed m₀ hm₀] at ha
    exact h.agree m₀ hm₀ m hm x a implementation ha hgives
  · have hnone : ∀ m ∈ members, gives F g m false x = none := fun m hm =>
      Option.not_isSome_iff_eq_none.1 fun hsome => hgiven ⟨m, hm, hsome⟩
    rw [lastGiven_eq_before hnone]
    refine lastGiven_eq_before (fun m' hm' => ?_) none
    obtain ⟨m₀, hm₀, rfl⟩ := (mem_renameMembers ρ).1 hm'
    rw [hrenamed m₀ hm₀, hnone m₀ hm₀]

/-- **Independent members give the same under all names.** -/
theorem Independent.nameIndependent (hg : Unimplemented g) (hw : WellFormed F g members)
    (h : Independent F g members) : NameIndependent F g members := by
  have htyped := hw.allTyped h.typed
  refine ⟨fun x => lastGiven (fun m => gives F g m false x) members none, fun x hx => ?_,
    fun ρ hρ => ?_⟩
  · obtain ⟨m, hm, hx⟩ := hx
    obtain ⟨implementation, hgives⟩ := Option.isSome_iff_exists.1 (isSome_gives htyped hm hx)
    exact Option.isSome_of_eq_some (h.lastGiven_eq hm hgives)
  · obtain ⟨g', hall, himplementations⟩ :=
      implementDataGraph_rename ρ hg htyped h.itself hw.distinct
    rw [h.taken ρ hρ] at hall
    refine ⟨g', hall, fun x => ?_⟩
    rw [himplementations]
    by_cases hlisted : x ∈ members.map Prod.fst
    · obtain ⟨m, hm, rfl⟩ := List.mem_map.1 hlisted
      exact h.lastGiven_listed htyped hw.distinct ρ hm
    · exact h.lastGiven_unlisted htyped ρ hlisted

/-- **The names of the instances do not matter** exactly when no member takes its implementation
from a group, no two members give an instance different implementations, the members that map their
own instances do not change what they give the others, and the interfaces take the contexts that
they are given. -/
theorem nameIndependent_iff (hg : Unimplemented g) (hw : WellFormed F g members) :
    NameIndependent F g members ↔ Independent F g members := by
  constructor
  · intro h
    have htyped := h.typed hg hw.distinct
    have hall := hw.allTyped htyped
    exact ⟨htyped, h.agree hg hall hw.distinct, h.itself hg hw.distinct hall,
      h.same hg hall hw.distinct, h.taken hg hall hw.distinct⟩
  · exact fun h => h.nameIndependent hg hw

end

/-- `Buffer Accumulator`: an implementation is the way to it, from an instance to its type and an
interface. -/
def bufferAccumulators : Implementations (List ByteString) Unit where
  createImplementation instanceName typeName _ :=
    if typeName = bytes "Buffer Accumulator" then .ok [instanceName, typeName]
    else throwRuntimeError ("No factory exists for implementation '" ++ asText typeName ++ "'.")
  isSource _ := false
  isPathable way := way.length = 3
  isGroup way := way.length = 2
  getInterface way name :=
    if name ∈ [bytes "Append Buffers", bytes "Send Accumulated Buffers", bytes "Clear Buffers"] then
      some (way ++ [name])
    else none
  setSubgraphContext _ _ _ := .ok ()

/-- A graph with a node that appends buffers. -/
def appendingGraph : ImplementedGraph (List ByteString) Unit where
  mNodes := [⟨bytes "Append Buffers", bytes "Append", true, false⟩]
  mInstances := ∅
  defaultSubgraphContext := ()

theorem unimplemented_appendingGraph : Unimplemented appendingGraph where
  mTypeName _ := rfl
  implementationOf _ := rfl

/-- The accumulator gives one of its interfaces to the node's instance. -/
def mappingAccumulator : Json := .object [
  (bytes "instanceToInterfaceMap",
    .object [(bytes "Append", .object [(bytes "interface", .string (bytes "Append Buffers"))])]),
  (bytes "type", .string (bytes "Buffer Accumulator"))]

/-- The node's instance takes the interface of the accumulator itself. -/
def fromAccumulator : List (ByteString × Json) := [
  (bytes "Append", .object [(bytes "implementationFromGroup", .object [
    (bytes "groupInstance", .string (bytes "Buffers")),
    (bytes "groupInterface", .string (bytes "Append Buffers"))])]),
  (bytes "Buffers", .object [(bytes "type", .string (bytes "Buffer Accumulator"))])]

theorem mapsInterfaces_of_none {ι κ : Type} {F : Implementations ι κ} {group : ι} {entry : Json}
    (h : entry.find (bytes "instanceToInterfaceMap") = none) : MapsInterfaces F group entry := by
  have hnil : interfaceMap entry = [] := by rw [interfaceMap, h]
  refine ⟨fun j hj => ?_, fun x hx => ?_, ?_⟩
  · rw [h] at hj
    cases hj
  · rw [hnil] at hx
    cases hx
  · rw [hnil]
    exact .nil

/-- A member that creates an accumulator. -/
theorem typedMember_accumulator {entry : Json}
    (htype : entry.find (bytes "type") = some (.string (bytes "Buffer Accumulator")))
    (hparameters : entry.find (bytes "initParameters") = none)
    (hmaps : MapsInterfaces bufferAccumulators [bytes "Buffers", bytes "Buffer Accumulator"]
      entry) :
    TypedMember bufferAccumulators appendingGraph.mNodes
      (appendingGraph.instanceOf (bytes "Buffers")).mInitParameters (bytes "Buffers") entry
      [bytes "Buffers", bytes "Buffer Accumulator"] where
  isObject := by
    rw [hparameters]
    exact nofun
  created := ⟨bytes "Buffer Accumulator", .null, by decide, htype,
    by rw [parametersWith, hparameters]; rfl, rfl⟩
  serves := by
    intro node hnode hname
    rw [List.mem_singleton.1 hnode] at hname
    exact absurd hname (by decide)
  maps := hmaps

theorem mapsInterfaces_mappingAccumulator :
    MapsInterfaces bufferAccumulators [bytes "Buffers", bytes "Buffer Accumulator"]
      mappingAccumulator where
  isObject := by
    intro j hj
    obtain rfl := Option.some.inj hj
    rfl
  has := by
    intro x hx
    obtain rfl := List.mem_singleton.1 hx
    exact ⟨rfl, _, bytes "Append Buffers", rfl, by decide, rfl, by decide⟩
  distinct := by decide

theorem nameIndependent_mapping :
    NameIndependent bufferAccumulators appendingGraph [(bytes "Buffers", mappingAccumulator)] := by
  have hmaps := mapsInterfaces_mappingAccumulator
  have hmember := typedMember_accumulator rfl rfl hmaps
  have hunmapped : bytes "Buffers" ∉ (interfaceMap mappingAccumulator).map Prod.fst := by decide
  refine (nameIndependent_iff unimplemented_appendingGraph ⟨by decide, ?_, ?_⟩).2
    ⟨?_, ?_, ?_, ?_, fun _ _ => takeAll_ok _ (fun _ _ _ => rfl) _ _⟩ <;>
    refine List.forall_mem_singleton.2 ?_
  · exact hmember.isObject
  · exact ⟨_, .type List.mem_cons_self hmember, hmaps⟩
  · rfl
  · refine List.forall_mem_singleton.2 fun x implementation implementation' hgives hgives' => ?_
    exact Option.some.inj (hgives.symm.trans hgives')
  · intro implementation _ own hown
    rw [mappedInterface_of_not_mem implementation hunmapped] at hown
    cases hown
  · intro x _
    rw [gives_eq hmember, written, written, askedGroup, mappedInterface_of_not_mem _ hunmapped]
    rfl

theorem not_nameIndependent : Unimplemented appendingGraph ∧
    WellFormed bufferAccumulators appendingGraph fromAccumulator ∧
    (∀ g', implementDataGraph bufferAccumulators appendingGraph (.object fromAccumulator) ≠
      .ok g') ∧
    ¬ NameIndependent bufferAccumulators appendingGraph fromAccumulator := by
  have hbuffers : Provides bufferAccumulators appendingGraph fromAccumulator (bytes "Buffers")
      [bytes "Buffers", bytes "Buffer Accumulator"] :=
    .type (List.mem_cons_of_mem _ List.mem_cons_self)
      (typedMember_accumulator rfl rfl (mapsInterfaces_of_none rfl))
  have happend : Provides bufferAccumulators appendingGraph fromAccumulator (bytes "Append")
      [bytes "Buffers", bytes "Buffer Accumulator", bytes "Append Buffers"] :=
    .fromGroup List.mem_cons_self rfl rfl rfl rfl (by decide) (by decide) hbuffers rfl rfl
  have hdistinct : (fromAccumulator.map Prod.fst).Nodup := by decide
  refine ⟨unimplemented_appendingGraph, ⟨hdistinct, ?_, ?_⟩, fun g' hok => ?_, fun h => ?_⟩
  · exact List.forall_mem_cons.2 ⟨nofun, List.forall_mem_singleton.2 nofun⟩
  · exact List.forall_mem_cons.2 ⟨⟨_, happend, mapsInterfaces_of_none rfl⟩,
      List.forall_mem_singleton.2 ⟨_, hbuffers, mapsInterfaces_of_none rfl⟩⟩
  · rw [implementDataGraph, fromAccumulator, List.foldlM_cons] at hok
    obtain ⟨g₁, hone, -⟩ := bind_eq_ok.1 hok
    exact implementInstance_first rfl unimplemented_appendingGraph.implementationOf g₁ hone
  · exact Bool.false_ne_true
      (h.typed unimplemented_appendingGraph hdistinct _ List.mem_cons_self)

end Maplang
