import Mathlib.Logic.Function.Basic
import RoutingMesh.StepRun

/-!
# The TCP connections between two nodes

Each node connects to the other from its keepalive thread and accepts from
its accept thread, and both threads store what they get in one table entry.
A connection is a number that stands for its two ends, one at each node.  The
keepalive thread decides to connect under one acquisition of `tcp_mutex` and
stores under another, so an accepted connection can be stored in between.
-/

namespace RoutingMesh

/-- The two nodes. -/
inductive Peer where
  | a
  | b
  deriving DecidableEq, Repr

/-- The node at the other end. -/
def Peer.other : Peer → Peer
  | .a => .b
  | .b => .a

/-- Where `tcp_keepalive_loop` stands with respect to the other node. -/
inductive KeepalivePhase where
  | probing
  | connecting
  | connected (conn : Nat)
  deriving DecidableEq, Repr

/-- Where `tcp_accept_loop` stands. -/
inductive AcceptPhase where
  | waiting
  | accepted (conn : Nat)
  deriving DecidableEq, Repr

/--
One node: the entry for the other node (`none` stands for a negative one),
its two threads, the connections that its listening socket has completed but
`accept` has not returned, and those whose local end it has closed.
-/
structure PeerState where
  tcpSockfd : Option Nat
  keepalive : KeepalivePhase
  accept : AcceptPhase
  backlog : List Nat
  closed : List Nat

/-- Both nodes, and how many connections have been opened. -/
structure TcpState where
  node : Peer → PeerState
  opened : Nat

/-- Before any connection. -/
def tcpStart : TcpState where
  node := fun _ =>
    { tcpSockfd := none
      keepalive := .probing
      accept := .waiting
      backlog := []
      closed := [] }
  opened := 0

/--
The steps of the threads of a node.  `closeStored` stands for the places that
close the entry when they find it dead: the probe, the receive thread, the
sender and the event handler.
-/
inductive TcpAction where
  | readNegative (peer : Peer)
  | connect (peer : Peer)
  | connectFails (peer : Peer)
  | storeConnected (peer : Peer)
  | accept (peer : Peer)
  | storeAccepted (peer : Peer)
  | closeStored (peer : Peer)
  deriving DecidableEq, Repr

/-- Change the state of one node. -/
def TcpState.set
    (state : TcpState)
    (peer : Peer)
    (next : PeerState) : TcpState :=
  { state with node := Function.update state.node peer next }

/-- The entry is closed, if there is one. -/
def PeerState.closeEntry (node : PeerState) : PeerState :=
  match node.tcpSockfd with
  | some conn =>
      { node with
        tcpSockfd := none
        closed := conn :: node.closed }
  | none => node

/-- One step; a step whose thread is elsewhere does nothing. -/
def tcpStep (state : TcpState) : TcpAction → TcpState
  | .readNegative peer =>
      match (state.node peer).keepalive, (state.node peer).tcpSockfd with
      | .probing, none =>
          state.set peer { state.node peer with keepalive := .connecting }
      | _, _ => state
  | .connect peer =>
      match (state.node peer).keepalive with
      | .connecting =>
          { opened := state.opened + 1
            node :=
              Function.update
                (Function.update state.node peer
                  { state.node peer with
                    keepalive := .connected state.opened })
                peer.other
                { state.node peer.other with
                  backlog :=
                    (state.node peer.other).backlog ++ [state.opened] } }
      | _ => state
  | .connectFails peer =>
      match (state.node peer).keepalive with
      | .connecting =>
          state.set peer { state.node peer with keepalive := .probing }
      | _ => state
  | .storeConnected peer =>
      match (state.node peer).keepalive with
      | .connected conn =>
          -- The entry is overwritten: what it held is neither read nor closed.
          state.set peer
            { state.node peer with
              tcpSockfd := some conn
              keepalive := .probing }
      | _ => state
  | .accept peer =>
      match (state.node peer).accept, (state.node peer).backlog with
      | .waiting, conn :: rest =>
          state.set peer
            { state.node peer with
              accept := .accepted conn
              backlog := rest }
      | _, _ => state
  | .storeAccepted peer =>
      match (state.node peer).accept with
      | .accepted conn =>
          state.set peer
            { (state.node peer).closeEntry with
              tcpSockfd := some conn
              accept := .waiting }
      | _ => state
  | .closeStored peer => state.set peer (state.node peer).closeEntry

/-- A step is one that its thread can take next. -/
def TcpEnabled (state : TcpState) : TcpAction → Prop
  | .readNegative peer =>
      (state.node peer).keepalive = .probing ∧
        (state.node peer).tcpSockfd = none
  | .connect peer => (state.node peer).keepalive = .connecting
  | .connectFails peer => (state.node peer).keepalive = .connecting
  | .storeConnected peer =>
      match (state.node peer).keepalive with
      | .connected _ => True
      | _ => False
  | .accept peer =>
      (state.node peer).accept = .waiting ∧ (state.node peer).backlog ≠ []
  | .storeAccepted peer =>
      match (state.node peer).accept with
      | .accepted _ => True
      | _ => False
  | .closeStored peer => (state.node peer).tcpSockfd ≠ none

/-- Neither node has closed its end; a close resets the other end. -/
def TcpState.IsOpen (state : TcpState) (conn : Nat) : Prop :=
  conn ∉ (state.node .a).closed ∧ conn ∉ (state.node .b).closed

/-- The node has the connection in its entry, in a thread or in its backlog. -/
def PeerState.Holds (node : PeerState) (conn : Nat) : Prop :=
  node.tcpSockfd = some conn ∨
    node.keepalive = .connected conn ∨
    node.accept = .accepted conn ∨
    conn ∈ node.backlog

/-- No connect and no accept is pending. -/
structure PeerState.Quiet (node : PeerState) : Prop where
  noConnect : node.keepalive = .probing
  noAccept : node.accept = .waiting
  noBacklog : node.backlog = []

/-- The keepalive thread does not store over an open connection. -/
def StoresOverNoOpenEnd (state : TcpState) : TcpAction → Prop
  | .storeConnected peer =>
      ∀ conn ∈ (state.node peer).tcpSockfd, ¬ state.IsOpen conn
  | _ => True

instance (state : TcpState) : DecidablePred (TcpEnabled state)
  | .readNegative peer =>
      inferInstanceAs
        (Decidable
          ((state.node peer).keepalive = .probing ∧
            (state.node peer).tcpSockfd = none))
  | .connect peer =>
      inferInstanceAs (Decidable ((state.node peer).keepalive = .connecting))
  | .connectFails peer =>
      inferInstanceAs (Decidable ((state.node peer).keepalive = .connecting))
  | .storeConnected peer =>
      match phase : (state.node peer).keepalive with
      | .probing => .isFalse (by simp [TcpEnabled, phase])
      | .connecting => .isFalse (by simp [TcpEnabled, phase])
      | .connected _ => .isTrue (by simp [TcpEnabled, phase])
  | .accept peer =>
      inferInstanceAs
        (Decidable
          ((state.node peer).accept = .waiting ∧
            (state.node peer).backlog ≠ []))
  | .storeAccepted peer =>
      match phase : (state.node peer).accept with
      | .waiting => .isFalse (by simp [TcpEnabled, phase])
      | .accepted _ => .isTrue (by simp [TcpEnabled, phase])
  | .closeStored peer =>
      inferInstanceAs (Decidable ((state.node peer).tcpSockfd ≠ none))

instance (state : TcpState) : DecidablePred state.IsOpen :=
  fun _ => inferInstanceAs (Decidable (_ ∧ _))

instance (state : TcpState) : DecidablePred (StoresOverNoOpenEnd state)
  | .readNegative _ => .isTrue trivial
  | .connect _ => .isTrue trivial
  | .connectFails _ => .isTrue trivial
  | .storeConnected peer =>
      inferInstanceAs
        (Decidable
          (∀ conn ∈ (state.node peer).tcpSockfd, ¬ state.IsOpen conn))
  | .accept _ => .isTrue trivial
  | .storeAccepted _ => .isTrue trivial
  | .closeStored _ => .isTrue trivial

/-!
## Both ends of an open connection
-/

/-- Whoever holds an open connection, the other node holds its other end. -/
def TcpState.EndsHeld (state : TcpState) : Prop :=
  ∀ peer conn,
    (state.node peer).Holds conn →
    state.IsOpen conn →
    (state.node peer.other).Holds conn

@[simp] theorem Peer.other_other (peer : Peer) : peer.other.other = peer := by
  cases peer <;> rfl

theorem Peer.other_ne (peer : Peer) : peer.other ≠ peer := by
  cases peer <;> decide

theorem Peer.eq_or_eq_other (peer q : Peer) : q = peer ∨ q = peer.other := by
  cases peer <;> cases q <;> simp [Peer.other]

@[simp] theorem TcpState.node_set_self
    (state : TcpState)
    (peer : Peer)
    (next : PeerState) :
    (state.set peer next).node peer = next :=
  Function.update_self _ _ _

@[simp] theorem TcpState.node_set_other
    (state : TcpState)
    (peer : Peer)
    (next : PeerState) :
    (state.set peer next).node peer.other = state.node peer.other :=
  Function.update_of_ne peer.other_ne _ _

/-- Openness in terms of any node and the other one. -/
theorem TcpState.isOpen_iff
    {state : TcpState}
    (peer : Peer)
    {conn : Nat} :
    state.IsOpen conn ↔
      conn ∉ (state.node peer).closed ∧
        conn ∉ (state.node peer.other).closed := by
  cases peer with
  | a =>
      rfl
  | b =>
      exact and_comm

/-- What is open after a step of one node was open before it. -/
theorem TcpState.isOpen_of_set
    {state : TcpState}
    {peer : Peer}
    {next : PeerState}
    (closes : (state.node peer).closed ⊆ next.closed)
    {conn : Nat}
    (isOpen : (state.set peer next).IsOpen conn) :
    state.IsOpen conn := by
  obtain ⟨openHere, openThere⟩ := (isOpen_iff peer).mp isOpen
  rw [node_set_self] at openHere
  rw [node_set_other] at openThere
  exact (isOpen_iff peer).mpr
    ⟨fun isClosed => openHere (closes isClosed), openThere⟩

theorem endsHeld_tcpStart : tcpStart.EndsHeld := by
  intro peer conn holds
  simp [tcpStart, PeerState.Holds] at holds

/--
A step of one node that loses no open connection and gains none keeps both
ends held.
-/
theorem TcpState.EndsHeld.set
    {state : TcpState}
    {peer : Peer}
    {next : PeerState}
    (endsHeld : state.EndsHeld)
    (keeps :
      ∀ conn, (state.node peer).Holds conn →
        (state.set peer next).IsOpen conn → next.Holds conn)
    (gains : ∀ conn, next.Holds conn → (state.node peer).Holds conn)
    (closes : (state.node peer).closed ⊆ next.closed) :
    (state.set peer next).EndsHeld := by
  intro q conn holds isOpen
  have wasOpen : state.IsOpen conn := isOpen_of_set closes isOpen
  rcases peer.eq_or_eq_other q with rfl | rfl
  · rw [node_set_self] at holds
    rw [node_set_other]
    exact endsHeld q conn (gains conn holds) wasOpen
  · rw [node_set_other] at holds
    have heldHere := endsHeld peer.other conn holds wasOpen
    rw [Peer.other_other] at heldHere ⊢
    rw [node_set_self]
    exact keeps conn heldHere isOpen

/-- Closing the entry gives up one connection, which is closed from then on. -/
theorem PeerState.holds_closeEntry
    {node : PeerState}
    {conn : Nat} :
    node.closeEntry.Holds conn ↔
      node.keepalive = .connected conn ∨
        node.accept = .accepted conn ∨ conn ∈ node.backlog := by
  unfold PeerState.closeEntry PeerState.Holds
  cases entry : node.tcpSockfd with
  | none =>
      simp [entry]
  | some stored =>
      simp

@[simp] theorem PeerState.keepalive_closeEntry (node : PeerState) :
    node.closeEntry.keepalive = node.keepalive := by
  unfold PeerState.closeEntry
  split <;> rfl

@[simp] theorem PeerState.backlog_closeEntry (node : PeerState) :
    node.closeEntry.backlog = node.backlog := by
  unfold PeerState.closeEntry
  split <;> rfl

theorem PeerState.mem_closed_closeEntry
    {node : PeerState}
    {conn : Nat} :
    conn ∈ node.closeEntry.closed ↔
      node.tcpSockfd = some conn ∨ conn ∈ node.closed := by
  unfold PeerState.closeEntry
  cases entry : node.tcpSockfd with
  | none =>
      simp
  | some stored =>
      simp [eq_comm]

/-- Opening a connection gives each node one end of it. -/
theorem TcpState.EndsHeld.connect
    {state : TcpState}
    {peer : Peer}
    (endsHeld : state.EndsHeld)
    (allowed : TcpEnabled state (.connect peer)) :
    (tcpStep state (.connect peer)).EndsHeld := by
  have atConnect : (state.node peer).keepalive = .connecting := allowed
  simp only [tcpStep, atConnect]
  intro q conn holds isOpen
  have wasOpen : state.IsOpen conn := by
    obtain ⟨openHere, openThere⟩ := (isOpen_iff peer).mp isOpen
    exact (isOpen_iff peer).mpr
      ⟨by simpa [peer.other_ne.symm] using openHere, by simpa using openThere⟩
  have holdsHere :
      PeerState.Holds
          { state.node peer with keepalive := .connected state.opened }
          conn ↔
        (state.node peer).Holds conn ∨ conn = state.opened := by
    simp only [PeerState.Holds, atConnect, KeepalivePhase.connected.injEq,
      reduceCtorEq, false_or, eq_comm]
    tauto
  have holdsThere :
      PeerState.Holds
          { state.node peer.other with
            backlog := (state.node peer.other).backlog ++ [state.opened] }
          conn ↔
        (state.node peer.other).Holds conn ∨ conn = state.opened := by
    simp only [PeerState.Holds, List.mem_append, List.mem_singleton]
    tauto
  dsimp only at holds ⊢
  rcases peer.eq_or_eq_other q with rfl | rfl
  · rw [Function.update_of_ne q.other_ne.symm, Function.update_self] at holds
    rw [Function.update_self]
    exact holdsThere.mpr ((holdsHere.mp holds).imp_left
      (fun old => endsHeld q conn old wasOpen))
  · rw [Function.update_self] at holds
    rw [Peer.other_other, Function.update_of_ne peer.other_ne.symm,
      Function.update_self]
    refine holdsHere.mpr ((holdsThere.mp holds).imp_left ?_)
    intro old
    have heldHere := endsHeld peer.other conn old wasOpen
    rwa [Peer.other_other] at heldHere

/-- Storing a connected end over no open one keeps both ends held. -/
theorem TcpState.EndsHeld.storeConnected
    {state : TcpState}
    {peer : Peer}
    (endsHeld : state.EndsHeld)
    (noOverwrite : StoresOverNoOpenEnd state (.storeConnected peer)) :
    (tcpStep state (.storeConnected peer)).EndsHeld := by
  simp only [tcpStep]
  split
  · rename_i stored atStore
    apply endsHeld.set
    · intro conn holds isOpen
      rcases holds with entry | atKeepalive | atAccept | waits
      · -- The connection in the entry is lost, and it is not open.
        have wasOpen : state.IsOpen conn := by
          refine isOpen_of_set ?_ isOpen
          exact List.Subset.refl _
        exact (noOverwrite conn entry wasOpen).elim
      · rw [atStore] at atKeepalive
        exact .inl (congrArg some (KeepalivePhase.connected.inj atKeepalive))
      · exact .inr (.inr (.inl atAccept))
      · exact .inr (.inr (.inr waits))
    · intro conn holds
      rcases holds with entry | atKeepalive | atAccept | waits
      · exact .inr (.inl (atStore.trans
          (congrArg KeepalivePhase.connected (Option.some.inj entry))))
      · cases atKeepalive
      · exact .inr (.inr (.inl atAccept))
      · exact .inr (.inr (.inr waits))
    · exact List.Subset.refl _
  · exact endsHeld

/-- Storing an accepted end closes the stored one and keeps both ends held. -/
theorem TcpState.EndsHeld.storeAccepted
    {state : TcpState}
    {peer : Peer}
    (endsHeld : state.EndsHeld) :
    (tcpStep state (.storeAccepted peer)).EndsHeld := by
  simp only [tcpStep]
  split
  · rename_i stored atAccept
    apply endsHeld.set
    · intro conn holds isOpen
      rcases holds with entry | atKeepalive | isAccepted | waits
      · have openHere := ((isOpen_iff peer).mp isOpen).1
        rw [node_set_self] at openHere
        exact (openHere
          (PeerState.mem_closed_closeEntry.mpr (.inl entry))).elim
      · exact .inr (.inl (by rwa [PeerState.keepalive_closeEntry]))
      · rw [atAccept] at isAccepted
        exact .inl (congrArg some (AcceptPhase.accepted.inj isAccepted))
      · exact .inr (.inr (.inr (by rwa [PeerState.backlog_closeEntry])))
    · intro conn holds
      rcases holds with entry | atKeepalive | isAccepted | waits
      · exact .inr (.inr (.inl (atAccept.trans
          (congrArg AcceptPhase.accepted (Option.some.inj entry)))))
      · exact .inr (.inl (by
          rwa [PeerState.keepalive_closeEntry] at atKeepalive))
      · cases isAccepted
      · exact .inr (.inr (.inr (by
          rwa [PeerState.backlog_closeEntry] at waits)))
    · intro conn isClosed
      exact PeerState.mem_closed_closeEntry.mpr (.inr isClosed)
  · exact endsHeld

/-- Every step that stores over no open connection keeps both ends held. -/
theorem TcpState.EndsHeld.step
    {state : TcpState}
    {action : TcpAction}
    (endsHeld : state.EndsHeld)
    (allowed : TcpEnabled state action)
    (noOverwrite : StoresOverNoOpenEnd state action) :
    (tcpStep state action).EndsHeld := by
  cases action with
  | readNegative peer =>
      obtain ⟨atProbe, noEntry⟩ := allowed
      simp only [tcpStep, atProbe, noEntry]
      apply endsHeld.set
      · intro conn holds _
        simpa [PeerState.Holds, atProbe, noEntry] using holds
      · intro conn holds
        simpa [PeerState.Holds, atProbe, noEntry] using holds
      · exact List.Subset.refl _
  | connect peer =>
      exact endsHeld.connect allowed
  | connectFails peer =>
      have atConnect : (state.node peer).keepalive = .connecting := allowed
      simp only [tcpStep, atConnect]
      apply endsHeld.set
      · intro conn holds _
        simpa [PeerState.Holds, atConnect] using holds
      · intro conn holds
        simpa [PeerState.Holds, atConnect] using holds
      · exact List.Subset.refl _
  | storeConnected peer =>
      exact endsHeld.storeConnected noOverwrite
  | accept peer =>
      simp only [tcpStep]
      split
      · rename_i stored rest atAccept atBacklog
        apply endsHeld.set
        · intro conn holds _
          simpa [PeerState.Holds, atAccept, atBacklog, eq_comm] using holds
        · intro conn holds
          simpa [PeerState.Holds, atAccept, atBacklog, eq_comm] using holds
        · exact List.Subset.refl _
      · exact endsHeld
  | storeAccepted peer =>
      exact endsHeld.storeAccepted
  | closeStored peer =>
      apply endsHeld.set
      · intro conn holds isOpen
        rcases holds with entry | stays
        · have openHere := ((isOpen_iff peer).mp isOpen).1
          rw [node_set_self] at openHere
          exact (openHere
            (PeerState.mem_closed_closeEntry.mpr (.inl entry))).elim
        · exact PeerState.holds_closeEntry.mpr stays
      · intro conn holds
        exact .inr (PeerState.holds_closeEntry.mp holds)
      · intro conn isClosed
        exact PeerState.mem_closed_closeEntry.mpr (.inr isClosed)

/-- A quiet node holds no connection but the one in its entry. -/
theorem PeerState.Quiet.holds
    {node : PeerState}
    (quiet : node.Quiet)
    {conn : Nat}
    (holds : node.Holds conn) :
    node.tcpSockfd = some conn := by
  rcases holds with entry | atKeepalive | isAccepted | waits
  · exact entry
  · rw [quiet.noConnect] at atKeepalive
    cases atKeepalive
  · rw [quiet.noAccept] at isAccepted
    cases isAccepted
  · rw [quiet.noBacklog] at waits
    cases waits

/--
In every run whose keepalive threads store over no open connection, whenever
nothing is pending and both entries hold open endpoints, these are the two
ends of one connection.
-/
theorem tcp_entries_agree
    {state : TcpState}
    (reachable :
      StepRun.Reachable tcpStep
        (fun state action =>
          TcpEnabled state action ∧ StoresOverNoOpenEnd state action)
        tcpStart state)
    (quiet : ∀ peer, (state.node peer).Quiet)
    {conn conn' : Nat}
    (atA : (state.node .a).tcpSockfd = some conn)
    (atB : (state.node .b).tcpSockfd = some conn')
    (isOpen : state.IsOpen conn)
    (_ : state.IsOpen conn') :
    conn = conn' := by
  have endsHeld : state.EndsHeld :=
    reachable.invariant TcpState.EndsHeld endsHeld_tcpStart
      (fun endsHeld allowed => endsHeld.step allowed.1 allowed.2)
  have otherEnd : (state.node .b).tcpSockfd = some conn :=
    (quiet .b).holds (endsHeld .a conn (.inl atA) isOpen)
  rw [atB] at otherEnd
  exact (Option.some.inj otherEnd).symm

/--
Both nodes find no connection and connect.  Node A stores its own one and then
takes that of node B, which closes the first; node B stores over the dead end.
-/
def laterConnectionStays : List TcpAction :=
  [.readNegative .a, .readNegative .b, .connect .a, .connect .b,
    .storeConnected .a, .accept .b, .storeAccepted .b, .accept .a,
    .storeAccepted .a, .storeConnected .b]

/-- Both entries then hold the connection of node B. -/
theorem tcp_entries_agree_laterConnectionStays :
    let state := laterConnectionStays.foldl tcpStep tcpStart
    (state.node .a).tcpSockfd = some 1 ∧
      (state.node .a).tcpSockfd = (state.node .b).tcpSockfd := by
  have sameConnection : 1 = 1 :=
    tcp_entries_agree
      ⟨laterConnectionStays, StepRun.Run.of_checkRun (by decide)⟩
      (fun peer => by cases peer <;> exact ⟨rfl, rfl, rfl⟩)
      rfl rfl (by decide) (by decide)
  exact ⟨rfl, congrArg some sameConnection⟩

/--
Both nodes find no connection and connect; both accept and store what the
other one opened; and both keepalive threads store their own over it.
-/
def bothSidesConnect : List TcpAction :=
  [.readNegative .a, .readNegative .b, .connect .a, .connect .b,
    .accept .a, .storeAccepted .a, .accept .b, .storeAccepted .b,
    .storeConnected .a, .storeConnected .b]

/-- Each node then sends on the connection that it opened itself. -/
theorem tcp_entries_differ_bothSidesConnect :
    ¬ ∀ state,
      StepRun.Reachable tcpStep TcpEnabled tcpStart state →
      (∀ peer, (state.node peer).Quiet) →
      ∀ conn conn',
        (state.node .a).tcpSockfd = some conn →
        (state.node .b).tcpSockfd = some conn' →
        state.IsOpen conn →
        state.IsOpen conn' →
        conn = conn' := by
  intro always
  have same : 0 = 1 :=
    always (bothSidesConnect.foldl tcpStep tcpStart)
      ⟨bothSidesConnect, StepRun.Run.of_checkRun (by decide)⟩
      (fun peer => by cases peer <;> exact ⟨rfl, rfl, rfl⟩)
      0 1 rfl rfl (by decide) (by decide)
  exact absurd same (by decide)

end RoutingMesh
