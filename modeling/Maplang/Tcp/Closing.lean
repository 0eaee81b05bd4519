import Maplang.Tcp.Steps

/-!
# How often a socket is closed

`uv_close` should be called once for a socket at most.  It is called again when a connection is
disconnected that is closing already: it stays in the tables until libuv calls back.

## Main definitions

* `OpenSockets` : the step condition for Disconnector packets.
* `ClosedOnce` : the handles that are closing have been closed once.

## Main results

* `closeCalls_le_one` : as long as all steps meet the condition, no socket is closed twice.
* `closeCalls_two_of_not` : after a Disconnector packet that does not meet it, one is.
-/

namespace Maplang

namespace Tcp

/-- A connection that is disconnected is not closing, nor about to be closed since its read start
has failed. -/
def OpenSockets (T : Tcp) : Event → Prop
  | .disconnect packet => ∀ handle ∈ T.socketOf? packet,
    (T.handles handle).phase ≠ .closing ∧ T.starting ≠ some handle
  | _ => True

instance (T : Tcp) : DecidablePred T.OpenSockets
  | .disconnect _ => inferInstanceAs (Decidable (∀ _ ∈ _, _))
  | .newConnection _ | .errorPushed | .read _ _ _ | .send _ | .closed _ | .indexDrawn =>
    inferInstanceAs (Decidable True)

section

variable {uvStrerror : ℤ → ByteString} {T T' : Tcp}

/-! ### No socket is closed twice -/

/-- `uv_close` is called for closing handles, and has been called once for them. -/
structure ClosedOnce (T : Tcp) : Prop where
  unknown : ∀ handle, (T.handles handle).phase = .unknown → (T.handles handle).closeCalls ≤ 1
  unclosed : ∀ handle, (T.handles handle).phase ≠ .unknown →
    (T.handles handle).phase ≠ .closing → (T.handles handle).closeCalls = 0
  closing : ∀ handle, (T.handles handle).phase = .closing → (T.handles handle).closeCalls = 1
  starting : ∀ handle ∈ T.starting, (T.handles handle).phase = .accepted

theorem closedOnce_empty : ClosedOnce {} :=
  ⟨by simp, by simp, by simp, by simp⟩

theorem ClosedOnce.le_one (h : ClosedOnce T) (handle : ℕ) :
    (T.handles handle).closeCalls ≤ 1 := by
  by_cases hunknown : (T.handles handle).phase = .unknown
  · exact h.unknown handle hunknown
  · by_cases hclosing : (T.handles handle).phase = .closing
    · exact (h.closing handle hclosing).le
    · rw [h.unclosed handle hunknown hclosing]
      exact Nat.zero_le 1

/-- Nothing is said about the tables. -/
theorem ClosedOnce.of_eq (h : ClosedOnce T) (hhandles : T'.handles = T.handles)
    (hstarting : T'.starting = T.starting) : ClosedOnce T' := by
  obtain ⟨unknown, unclosed, closing, starting⟩ := h
  rw [← hhandles] at unknown unclosed closing starting
  rw [← hstarting] at starting
  exact ⟨unknown, unclosed, closing, starting⟩

/-- An open handle may be closed, unless it is closed next anyway. -/
theorem ClosedOnce.close (h : ClosedOnce T) {handle : ℕ}
    (hknown : (T.handles handle).phase ≠ .unknown) (hopen : (T.handles handle).phase ≠ .closing)
    (hhandles : T'.handles = Function.update T.handles handle
      { phase := .closing, closeCalls := (T.handles handle).closeCalls + 1 })
    (hstarting : ∀ other ∈ T'.starting, other ∈ T.starting ∧ other ≠ handle) : ClosedOnce T' := by
  have hself : T'.handles handle = { phase := .closing, closeCalls := 1 } := by
    rw [hhandles, Function.update_self, h.unclosed handle hknown hopen]
  have hother : ∀ other, other ≠ handle → T'.handles other = T.handles other := fun other hne => by
    rw [hhandles, Function.update_of_ne hne]
  constructor
  case unknown =>
    intro other hphase
    by_cases heq : other = handle
    · rw [heq, hself]
    · rw [hother other heq] at hphase ⊢
      exact h.unknown other hphase
  case unclosed =>
    intro other hphase hphase'
    by_cases heq : other = handle
    · rw [heq, hself] at hphase'
      exact absurd rfl hphase'
    · rw [hother other heq] at hphase hphase' ⊢
      exact h.unclosed other hphase hphase'
  case closing =>
    intro other hphase
    by_cases heq : other = handle
    · rw [heq, hself]
    · rw [hother other heq] at hphase ⊢
      exact h.closing other hphase
  case starting =>
    intro other hmem
    obtain ⟨hold, hne⟩ := hstarting other hmem
    rw [hother other hne]
    exact h.starting other hold

/-- Handles that have not been closed have not been closed twice. -/
theorem ClosedOnce.update (h : ClosedOnce T) {handle : ℕ} {uvHandle : UvHandle}
    (hunknown : uvHandle.phase = .unknown → uvHandle.closeCalls ≤ 1)
    (hopen : uvHandle.phase ≠ .unknown → uvHandle.closeCalls = 0)
    (hclosing : uvHandle.phase ≠ .closing)
    (hhandles : T'.handles = Function.update T.handles handle uvHandle)
    (hstarting : ∀ other ∈ T'.starting, (T'.handles other).phase = .accepted) : ClosedOnce T' := by
  refine ⟨fun other => ?_, fun other => ?_, fun other => ?_, hstarting⟩
  · rw [hhandles, Function.update_apply]
    split
    · exact hunknown
    · exact h.unknown other
  · rw [hhandles, Function.update_apply]
    split
    · exact fun hphase _ => hopen hphase
    · exact h.unclosed other
  · rw [hhandles, Function.update_apply]
    split
    · exact fun hphase => absurd hphase hclosing
    · exact h.closing other

/-- **One step**, if no Disconnector packet names a connection that is closing. -/
theorem ClosedOnce.change (h : ClosedOnce T) (hconsistent : Consistent T) {event : Event}
    (hopen : OpenSockets T event) (hc : Change T event T') : ClosedOnce T' := by
  cases hc with
  | same same => exact h.of_eq same.handles same.starting
  | @added incoming _ opens added =>
    refine h.update ?_ ?_ ?_ added.handles fun other hother => ?_
    · split <;> simp
    · exact fun _ => rfl
    · split <;> simp
    · rw [added.starting] at hother
      split at hother
      · rename_i hread
        obtain rfl := Option.some.inj hother
        rw [added.handles, Function.update_self, if_pos hread]
      · cases hother
  | closed reason found socket cause =>
    have hknown := hconsistent.linked.known_of_socketAt (socketAt_eq_some.2 ⟨_, found, socket⟩)
    rcases cause with hreading | ⟨packet, rfl, hsocket⟩
    · -- the end of the stream: the handle is read from, so it is not closing
      refine h.close hknown (by simp [hreading]) (closing_handles ..) fun other hother =>
        ⟨hother, ?_⟩
      rintro rfl
      have haccepted := h.starting other hother
      rw [hreading] at haccepted
      cases haccepted
    · obtain ⟨hphase, hstarting⟩ := hopen _ hsocket
      refine h.close hknown hphase (closing_handles ..) fun other hother => ⟨hother, ?_⟩
      rintro rfl
      exact hstarting hother
  | failed starting =>
    have haccepted := h.starting _ starting
    refine h.close (by simp [haccepted]) (by simp [haccepted]) rfl fun _ hother => ?_
    cases hother
  | @removed handle _ _ _ idle phase found socket drawn tables handles starting =>
    refine h.update (fun _ => ?_) (fun hphase => absurd rfl hphase) ?_ handles
      fun other hother => ?_
    · exact (h.closing handle phase).le
    · simp
    · rw [starting] at hother
      cases hother
  | inserted names missing drawn tables handles starting => exact h.of_eq handles starting

/-- The step condition of the sockets. -/
def ClosesOpen (T : Tcp) (event : Event) : Prop := NewIds T event ∧ OpenSockets T event

instance (T : Tcp) : DecidablePred T.ClosesOpen := fun _ => inferInstanceAs (Decidable (_ ∧ _))

theorem closedOnce_of_reachable (h : (tcpMachine uvStrerror).Reachable ClosesOpen {} T) :
    Consistent T ∧ ClosedOnce T :=
  consistent_and_of_reachable (fun _ _ hok => hok.1) closedOnce_empty
    (fun _ _ _ hconsistent honce hok hc => honce.change hconsistent hok.2 hc) h

/-- **No socket is closed twice**, in every state that is reached with steps that meet the
condition: a Disconnector packet names no connection that is closing, nor one whose read start has
just failed, and the ids of new connections are not those of other ones. -/
theorem closeCalls_le_one (uvStrerror : ℤ → ByteString) {T : Tcp}
    (h : (tcpMachine uvStrerror).Reachable ClosesOpen {} T) (handle : ℕ) :
    (T.handles handle).closeCalls ≤ 1 :=
  (closedOnce_of_reachable h).2.le_one handle

/-- **After a Disconnector packet that does not meet the condition**, a socket is closed twice: at
once, or when the error packet of the failed read start has been pushed. -/
theorem closeCalls_two_of_not (h : (tcpMachine uvStrerror).Reachable ClosesOpen {} T)
    {packet : Packet} (hopen : ¬ OpenSockets T (.disconnect packet))
    (hs : (tcpMachine uvStrerror).step T (.disconnect packet) = some T') :
    ∃ T'' handle, (tcpMachine uvStrerror).Reachable Machine.free T' T'' ∧
      (T''.handles handle).closeCalls = 2 := by
  obtain ⟨hconsistent, honce⟩ := closedOnce_of_reachable h
  simp only [OpenSockets, not_forall] at hopen
  obtain ⟨handle, hsocket, hnot⟩ := hopen
  obtain ⟨connectionId, hid, hentry⟩ := Option.bind_eq_some_iff.1 hsocket
  obtain ⟨connection, hfound, hhandle⟩ := socketAt_eq_some.1 hentry
  have hok := connectionIdOf_eq_ok hid
  simp only [tcpMachine, disconnect, hok, bind, Except.bind, hfound,
    closeConnection_eq _ hhandle] at hs
  obtain rfl := Option.some.inj hs
  by_cases hclosing : (T.handles handle).phase = .closing
  · refine ⟨_, handle, ⟨[], .nil _⟩, ?_⟩
    rw [closing_handles, Function.update_self, honce.closing handle hclosing]
  · have hstarting : T.starting = some handle := by
      by_contra hne
      exact hnot ⟨hclosing, hne⟩
    -- the failed read start closes the handle once more
    have hstep : (tcpMachine uvStrerror).step
        (T.closing connectionId connection (bytes "Local side requested disconnect.") handle)
        .errorPushed = some { uvClose (T.closing connectionId connection
          (bytes "Local side requested disconnect.") handle) handle with starting := none } :=
      congrArg (Option.map _) hstarting
    refine ⟨_, handle, ⟨[.errorPushed], .snoc (.nil _) trivial hstep⟩, ?_⟩
    have hknown := hconsistent.linked.known_of_socketAt hentry
    simp [uvClose, setHandle, closing_handles, honce.unclosed handle hknown hclosing]

end

/-- Two connections: the first is disconnected, and the read start of the second fails. -/
def closingEvents : List Event :=
  [.newConnection (loopback 1 5000 0), .disconnect (packetFor "127.0.0.1:5000 0"),
    .newConnection (loopback 2 5001 (-22)), .errorPushed, .closed 1, .closed 2]

theorem closeCalls_le_one_loopback :
    ((((tcpMachine fun _ => []).exec (fun T event => decide (ClosesOpen T event)) {}
      closingEvents).getD {}).handles 2).closeCalls ≤ 1 :=
  closeCalls_le_one (fun _ => []) ((Machine.reachable_exec (by decide +kernel)).mono
    fun _ _ hok => of_decide_eq_true hok) 2

/-- **A connection that is disconnected twice**, before libuv has called back, is closed twice. -/
theorem not_closeCalls_le_one_twice :
    ¬ ∀ T handle, (tcpMachine fun _ => []).Reachable Machine.free {} T →
      (T.handles handle).closeCalls ≤ 1 := by
  intro h
  have hrun : ((tcpMachine fun _ => []).exec (fun _ _ => true) {}
      [.newConnection (loopback 1 5000 0), .disconnect (packetFor "127.0.0.1:5000 0"),
        .disconnect (packetFor "127.0.0.1:5000 0")]).isSome = true := by
    decide +kernel
  have htwice := h _ 1 ((Machine.reachable_exec hrun).mono fun _ _ _ => trivial)
  exact absurd htwice (by decide +kernel)

end Tcp

end Maplang
