import Mathlib.Data.List.Perm.Subperm
import RoutingMesh.Custody
import RoutingMesh.MatrixWellFormed
import RoutingMesh.StepRun

/-!
# The descriptors of the connections

One table of descriptors, `tcp_sockfd`, serves the accept thread, the
keepalive thread, one receive thread for each peer and the transmitter.  They
read and write it under `tcp_mutex`, but use what they have read outside it,
when another thread may have closed the descriptor and the kernel may have
given its number to a connection of another peer.  Every step below is one
section under the mutex or one system call, so all orders of them are runs.
-/

namespace RoutingMesh

/-- Where `tcp_accept_loop` stands: it may hold what `accept` has returned. -/
inductive AcceptThread where
  | waiting
  | holding (peer : UInt8) (fd : Nat)
  deriving DecidableEq, Repr

/--
Where `tcp_keepalive_loop` stands: it connects to a peer without an entry and
probes the entry of every other peer.
-/
inductive KeepaliveThread where
  | idle
  | connecting (peer : UInt8)
  | holding (peer : UInt8) (fd : Nat)
  | probing (peer : UInt8) (fd : Nat)
  | dead (peer : UInt8) (fd : Nat)
  deriving DecidableEq, Repr

/--
Where a thread that uses an entry stands: `tcp_rx_peer_loop`, and `tx_loop`
while it sends a frame.
-/
inductive SocketUser where
  | idle
  | using (peer : UInt8) (fd : Nat)
  | failed (peer : UInt8) (fd : Nat)
  deriving DecidableEq, Repr

/--
What `tcp_rx_peer_loop` does after a `recv`: it reads the entry again, reads
the body on the same descriptor, or gives the connection up.
-/
inductive AfterRecv where
  | nextRound
  | readBody
  | close
  deriving DecidableEq, Repr

/-- A call of `close`: for which peer, and whose connection it closed. -/
structure SocketClose where
  peer : UInt8
  connection : Option UInt8
  deriving DecidableEq, Repr

/--
A call of `recv` or `send`: for which peer, over whose connection, and whether
the entry still held the descriptor.
-/
structure SocketUse where
  peer : UInt8
  connection : Option UInt8
  current : Bool
  deriving DecidableEq, Repr

/--
The table, the open descriptors with the peer that each is connected to, the
threads, the descriptors that were overwritten in the table, and the calls of
`close`, `recv` and `send`.
-/
structure Sockets where
  tcpSockfd : UInt8 → Option Nat
  opened : Nat → Option UInt8
  acceptThread : AcceptThread
  keepaliveThread : KeepaliveThread
  rxThreads : UInt8 → SocketUser
  txThread : SocketUser
  overwritten : List (UInt8 × Nat)
  closes : List SocketClose
  uses : List SocketUse

/-- After `node_init`. -/
def socketsStart : Sockets where
  tcpSockfd := fun _ => none
  opened := fun _ => none
  acceptThread := .waiting
  keepaliveThread := .idle
  rxThreads := fun _ => .idle
  txThread := .idle
  overwritten := []
  closes := []
  uses := []

/--
The steps of the threads.  `accept` and `connect` get a descriptor that is
free; a connection from an unknown address is closed before anything else.
-/
inductive SocketAction where
  | accept (peer : UInt8) (fd : Nat)
  | storeAccepted
  | keepaliveRead (peer : UInt8)
  | connect (fd : Nat)
  | connectFails
  | storeConnected
  | probe (isDead : Bool)
  | closeDead
  | rxRead (peer : UInt8)
  | rxRecv (peer : UInt8) (next : AfterRecv)
  | rxClose (peer : UInt8)
  | txRead (nextHop : UInt8)
  | txSend (complete : Bool)
  | txClose
  | closeTimedOut (peer : UInt8)
  deriving DecidableEq, Repr

/-- The entry of a peer is closed and becomes -1, unless it is already. -/
def Sockets.closeEntry (sockets : Sockets) (peer : UInt8) : Sockets :=
  match sockets.tcpSockfd peer with
  | none => sockets
  | some fd =>
      { sockets with
        tcpSockfd := Function.update sockets.tcpSockfd peer none
        opened := Function.update sockets.opened fd none
        closes :=
          sockets.closes ++
            [{ peer := peer
               connection := sockets.opened fd }] }

/-- The entry is closed if it still holds the descriptor that failed. -/
def Sockets.closeIfCurrent
    (sockets : Sockets)
    (peer : UInt8)
    (fd : Nat) : Sockets :=
  if sockets.tcpSockfd peer = some fd then sockets.closeEntry peer else sockets

/-- A descriptor that was read for a peer is given to `recv` or `send`. -/
def Sockets.useDescriptor
    (sockets : Sockets)
    (peer : UInt8)
    (fd : Nat) : Sockets :=
  { sockets with
    uses :=
      sockets.uses ++
        [{ peer := peer
           connection := sockets.opened fd
           current := decide (sockets.tcpSockfd peer = some fd) }] }

/-- A thread reads the entry of a peer under the mutex. -/
def Sockets.readEntry (sockets : Sockets) (peer : UInt8) : SocketUser :=
  match sockets.tcpSockfd peer with
  | none => .idle
  | some fd => .using peer fd

/-- One step; a step whose thread is elsewhere does nothing. -/
def socketsStep (sockets : Sockets) : SocketAction → Sockets
  | .accept peer fd =>
      match sockets.acceptThread with
      | .waiting =>
          { sockets with
            opened := Function.update sockets.opened fd (some peer)
            acceptThread := .holding peer fd }
      | _ => sockets
  | .storeAccepted =>
      match sockets.acceptThread with
      | .holding peer fd =>
          let closed := sockets.closeEntry peer
          { closed with
            tcpSockfd := Function.update closed.tcpSockfd peer (some fd)
            acceptThread := .waiting }
      | _ => sockets
  | .keepaliveRead peer =>
      match sockets.keepaliveThread with
      | .idle =>
          { sockets with
            keepaliveThread :=
              match sockets.tcpSockfd peer with
              | none => .connecting peer
              | some fd => .probing peer fd }
      | _ => sockets
  | .connect fd =>
      match sockets.keepaliveThread with
      | .connecting peer =>
          { sockets with
            opened := Function.update sockets.opened fd (some peer)
            keepaliveThread := .holding peer fd }
      | _ => sockets
  | .connectFails =>
      match sockets.keepaliveThread with
      | .connecting _ => { sockets with keepaliveThread := .idle }
      | _ => sockets
  | .storeConnected =>
      match sockets.keepaliveThread with
      | .holding peer fd =>
          -- The entry is not looked at again, and not closed.
          { sockets with
            tcpSockfd := Function.update sockets.tcpSockfd peer (some fd)
            keepaliveThread := .idle
            overwritten :=
              sockets.overwritten ++
                (sockets.tcpSockfd peer).toList.map (peer, ·) }
      | _ => sockets
  | .probe isDead =>
      match sockets.keepaliveThread with
      | .probing peer fd =>
          { sockets.useDescriptor peer fd with
            keepaliveThread := if isDead then .dead peer fd else .idle }
      | _ => sockets
  | .closeDead =>
      match sockets.keepaliveThread with
      | .dead peer fd =>
          { sockets.closeIfCurrent peer fd with keepaliveThread := .idle }
      | _ => sockets
  | .rxRead peer =>
      match sockets.rxThreads peer with
      | .idle =>
          { sockets with
            rxThreads :=
              Function.update sockets.rxThreads peer (sockets.readEntry peer) }
      | _ => sockets
  | .rxRecv peer next =>
      match sockets.rxThreads peer with
      | .using _ fd =>
          { sockets.useDescriptor peer fd with
            rxThreads :=
              Function.update sockets.rxThreads peer
                (match next with
                | .nextRound => .idle
                | .readBody => .using peer fd
                | .close => .failed peer fd) }
      | _ => sockets
  | .rxClose peer =>
      match sockets.rxThreads peer with
      | .failed _ fd =>
          { sockets.closeIfCurrent peer fd with
            rxThreads := Function.update sockets.rxThreads peer .idle }
      | _ => sockets
  | .txRead nextHop =>
      match sockets.txThread with
      | .idle => { sockets with txThread := sockets.readEntry nextHop }
      | _ => sockets
  | .txSend complete =>
      match sockets.txThread with
      | .using peer fd =>
          { sockets.useDescriptor peer fd with
            txThread := if complete then .idle else .failed peer fd }
      | _ => sockets
  | .txClose =>
      match sockets.txThread with
      | .failed peer fd =>
          { sockets.closeIfCurrent peer fd with txThread := .idle }
      | _ => sockets
  | .closeTimedOut peer => sockets.closeEntry peer

/--
The kernel gives out free descriptors, `accept` is followed by the search of
the address among those of the nodes, and keepalive goes through the nodes.
-/
def SocketsEnabled
    (numNodes : Nat)
    (sockets : Sockets) : SocketAction → Prop
  | .accept peer fd => InNetwork numNodes peer ∧ sockets.opened fd = none
  | .keepaliveRead peer => InNetwork numNodes peer
  | .connect fd => sockets.opened fd = none
  | _ => True

instance (numNodes : Nat) (sockets : Sockets) :
    DecidablePred (SocketsEnabled numNodes sockets)
  | .accept _ _ => inferInstanceAs (Decidable (_ ∧ _))
  | .keepaliveRead peer => inferInstanceAs (Decidable (InNetwork numNodes peer))
  | .connect fd => inferInstanceAs (Decidable (sockets.opened fd = none))
  | .storeAccepted => .isTrue trivial
  | .connectFails => .isTrue trivial
  | .storeConnected => .isTrue trivial
  | .probe _ => .isTrue trivial
  | .closeDead => .isTrue trivial
  | .rxRead _ => .isTrue trivial
  | .rxRecv _ _ => .isTrue trivial
  | .rxClose _ => .isTrue trivial
  | .txRead _ => .isTrue trivial
  | .txSend _ => .isTrue trivial
  | .txClose => .isTrue trivial
  | .closeTimedOut _ => .isTrue trivial

/-!
## The places of the descriptors
-/

/-- A place where an open descriptor can be. -/
inductive SocketPlace where
  | entry (peer : UInt8)
  | accepted (peer : UInt8)
  | connected (peer : UInt8)
  | overwritten (peer : UInt8) (fd : Nat)
  deriving DecidableEq, Repr

/-- The peer that a place is for. -/
def SocketPlace.peer : SocketPlace → UInt8
  | entry peer => peer
  | accepted peer => peer
  | connected peer => peer
  | overwritten peer _ => peer

/-- The descriptor that the accept thread holds for a peer. -/
def AcceptThread.held (peer : UInt8) : AcceptThread → Option Nat
  | .waiting => none
  | .holding other fd => if other = peer then some fd else none

/-- The descriptor that the keepalive thread has connected for a peer. -/
def KeepaliveThread.held (peer : UInt8) : KeepaliveThread → Option Nat
  | .holding other fd => if other = peer then some fd else none
  | _ => none

/-- Who holds which open descriptor. -/
def Sockets.custody (sockets : Sockets) :
    Custody.State SocketPlace Nat UInt8 where
  holds
    | .entry peer => sockets.tcpSockfd peer
    | .accepted peer => sockets.acceptThread.held peer
    | .connected peer => sockets.keepaliveThread.held peer
    | .overwritten peer fd =>
        if (peer, fd) ∈ sockets.overwritten then some fd else none
  opened := sockets.opened

section

variable {sockets : Sockets}
variable {peer : UInt8}
variable {fd : Nat}

theorem custody_closeEntry (sockets : Sockets) (peer : UInt8) :
    (sockets.closeEntry peer).custody =
      sockets.custody.release (.entry peer) := by
  unfold Sockets.closeEntry Custody.State.release
  cases isEntry : sockets.tcpSockfd peer with
  | none => simp [Sockets.custody, isEntry]
  | some fd =>
      simp only [Sockets.custody, isEntry]
      congr 1
      funext place
      cases place <;> simp [Function.update_apply]

/-- An accepted descriptor goes to the thread. -/
theorem custody_accept
    (waiting : sockets.acceptThread = .waiting) :
    (socketsStep sockets (.accept peer fd)).custody =
      sockets.custody.acquire SocketPlace.peer (.accepted peer) fd := by
  simp only [socketsStep, waiting, Sockets.custody, Custody.State.acquire]
  congr 1
  funext place
  cases place <;>
    simp [Function.update_apply, AcceptThread.held, eq_comm]

/-- The entry is released before the accepted descriptor goes there. -/
theorem custody_storeAccepted
    (holding : sockets.acceptThread = .holding peer fd) :
    (socketsStep sockets .storeAccepted).custody =
      (sockets.custody.release (.entry peer)).move (.accepted peer)
        (.entry peer) := by
  rw [← custody_closeEntry]
  have stillHolding :
      (sockets.closeEntry peer).acceptThread = .holding peer fd := by
    unfold Sockets.closeEntry
    split
    · exact holding
    · exact holding
  simp only [socketsStep, holding, Sockets.custody, Custody.State.move,
    stillHolding]
  congr 1
  funext place
  cases place <;>
    grind [Function.update_apply, AcceptThread.held]

theorem custody_connect
    (connecting : sockets.keepaliveThread = .connecting peer) :
    (socketsStep sockets (.connect fd)).custody =
      sockets.custody.acquire SocketPlace.peer (.connected peer) fd := by
  simp only [socketsStep, connecting, Sockets.custody, Custody.State.acquire]
  congr 1
  funext place
  cases place <;>
    simp [Function.update_apply, KeepaliveThread.held, eq_comm]

/-- A connected descriptor goes to an entry that is vacant. -/
theorem custody_storeConnected_of_none
    (holding : sockets.keepaliveThread = .holding peer fd)
    (isEntry : sockets.tcpSockfd peer = none) :
    (socketsStep sockets .storeConnected).custody =
      sockets.custody.move (.connected peer) (.entry peer) := by
  simp only [socketsStep, holding, isEntry, Sockets.custody,
    Custody.State.move]
  congr 1
  funext place
  cases place <;>
    grind [Function.update_apply, KeepaliveThread.held]

/-- What the entry held is overwritten by a connected descriptor. -/
theorem custody_storeConnected_of_some
    (holding : sockets.keepaliveThread = .holding peer fd)
    {old : Nat}
    (isEntry : sockets.tcpSockfd peer = some old) :
    (socketsStep sockets .storeConnected).custody =
      (sockets.custody.move (.entry peer) (.overwritten peer old)).move
        (.connected peer) (.entry peer) := by
  simp only [socketsStep, holding, isEntry, Sockets.custody,
    Custody.State.move]
  congr 1
  funext place
  cases place <;>
    grind [Function.update_apply, KeepaliveThread.held]

/-- The keepalive thread goes on without taking or giving a descriptor. -/
theorem custody_keepalive
    {next : KeepaliveThread}
    (sameHeld : ∀ other, next.held other = sockets.keepaliveThread.held other) :
    { sockets with keepaliveThread := next }.custody = sockets.custody := by
  simp only [Sockets.custody]
  congr 1
  funext place
  cases place <;> simp [sameHeld]

end

/-!
## What every step keeps
-/

/--
Open descriptors are connected to nodes and each is held at one place, and no
close and no use of a current entry has hit the connection of another peer.
-/
structure Sockets.Kept (numNodes : Nat) (sockets : Sockets) : Prop where
  exact : Custody.Exact SocketPlace.peer sockets.custody
  known :
    ∀ {fd peer}, sockets.opened fd = some peer → InNetwork numNodes peer
  connecting :
    ∀ {peer}, sockets.keepaliveThread = .connecting peer →
      InNetwork numNodes peer
  closes : ∀ close ∈ sockets.closes, close.connection = some close.peer
  uses :
    ∀ use ∈ sockets.uses, use.current = true →
      use.connection = some use.peer

namespace Sockets.Kept

variable {numNodes : Nat}
variable {sockets : Sockets}

theorem start : socketsStart.Kept numNodes where
  exact :=
    { opened_of_holds := by
        intro place fd
        cases place <;>
          simp [socketsStart, Sockets.custody, AcceptThread.held,
            KeepaliveThread.held]
      held := by simp [socketsStart, Sockets.custody]
      exclusive := by
        intro place other fd
        cases place <;>
          simp [socketsStart, Sockets.custody, AcceptThread.held,
            KeepaliveThread.held] }
  known := by simp [socketsStart]
  connecting := by simp [socketsStart]
  closes := by simp [socketsStart]
  uses := by simp [socketsStart]

/-- The entry of a peer is a descriptor that is connected to it. -/
theorem opened_of_entry
    (kept : sockets.Kept numNodes)
    {peer : UInt8}
    {fd : Nat}
    (isEntry : sockets.tcpSockfd peer = some fd) :
    sockets.opened fd = some peer :=
  @Custody.Exact.opened_of_holds _ _ _ _ _ kept.exact (.entry peer) fd isEntry

theorem closeEntry
    (kept : sockets.Kept numNodes)
    (peer : UInt8) :
    (sockets.closeEntry peer).Kept numNodes := by
  have exact :
      Custody.Exact SocketPlace.peer (sockets.closeEntry peer).custody := by
    rw [custody_closeEntry]
    exact kept.exact.release _
  unfold Sockets.closeEntry at exact ⊢
  cases isEntry : sockets.tcpSockfd peer with
  | none => exact kept
  | some fd =>
      simp only [isEntry] at exact
      refine ⟨exact, ?_, kept.connecting, ?_, kept.uses⟩
      · intro other owner isOpen
        dsimp only at isOpen
        rw [Function.update_apply] at isOpen
        split at isOpen
        · simp at isOpen
        · exact kept.known isOpen
      · intro close recorded
        rcases List.mem_append.mp recorded with before | isThis
        · exact kept.closes close before
        · obtain rfl := List.mem_singleton.mp isThis
          exact kept.opened_of_entry isEntry

theorem closeIfCurrent
    (kept : sockets.Kept numNodes)
    (peer : UInt8)
    (fd : Nat) :
    (sockets.closeIfCurrent peer fd).Kept numNodes := by
  unfold Sockets.closeIfCurrent
  split
  · exact kept.closeEntry peer
  · exact kept

theorem useDescriptor
    (kept : sockets.Kept numNodes)
    (peer : UInt8)
    (fd : Nat) :
    (sockets.useDescriptor peer fd).Kept numNodes := by
  refine
    ⟨kept.exact, kept.known, kept.connecting, kept.closes, ?_⟩
  intro use recorded isCurrent
  rcases List.mem_append.mp recorded with before | isThis
  · exact kept.uses use before isCurrent
  · obtain rfl := List.mem_singleton.mp isThis
    exact kept.opened_of_entry (of_decide_eq_true isCurrent)

/-- The keepalive thread goes on. -/
theorem keepalive
    (kept : sockets.Kept numNodes)
    {next : KeepaliveThread}
    (sameHeld : ∀ other, next.held other = sockets.keepaliveThread.held other)
    (inNetwork : ∀ {peer}, next = .connecting peer → InNetwork numNodes peer) :
    { sockets with keepaliveThread := next }.Kept numNodes := by
  refine ⟨?_, kept.known, inNetwork, kept.closes, kept.uses⟩
  rw [custody_keepalive sameHeld]
  exact kept.exact

/-- A new descriptor is connected to a node. -/
theorem known_of_update
    (kept : sockets.Kept numNodes)
    {peer : UInt8}
    (inNetwork : InNetwork numNodes peer)
    {newFd fd : Nat}
    {owner : UInt8}
    (isOpen :
      Function.update sockets.opened newFd (some peer) fd = some owner) :
    InNetwork numNodes owner := by
  rw [Function.update_apply] at isOpen
  split at isOpen
  · obtain rfl := Option.some.inj isOpen
    exact inNetwork
  · exact kept.known isOpen

theorem accept
    (kept : sockets.Kept numNodes)
    {peer : UInt8}
    {fd : Nat}
    (inNetwork : InNetwork numNodes peer)
    (isFree : sockets.opened fd = none) :
    (socketsStep sockets (.accept peer fd)).Kept numNodes := by
  cases waiting : sockets.acceptThread with
  | holding other otherFd =>
      simpa only [socketsStep, waiting] using kept
  | waiting =>
      have exact :
          Custody.Exact SocketPlace.peer
            (socketsStep sockets (.accept peer fd)).custody := by
        rw [custody_accept waiting]
        refine kept.exact.acquire ?_ isFree
        simp only [Sockets.custody, waiting, AcceptThread.held]
      simp only [socketsStep, waiting] at exact ⊢
      exact
        ⟨exact, fun isOpen => kept.known_of_update inNetwork isOpen,
          kept.connecting, kept.closes, kept.uses⟩

theorem storeAccepted
    (kept : sockets.Kept numNodes) :
    (socketsStep sockets .storeAccepted).Kept numNodes := by
  cases holding : sockets.acceptThread with
  | waiting =>
      simpa only [socketsStep, holding] using kept
  | holding peer fd =>
      have closed := kept.closeEntry peer
      have exact :
          Custody.Exact SocketPlace.peer
            (socketsStep sockets .storeAccepted).custody := by
        rw [custody_storeAccepted holding]
        exact
          (kept.exact.release (.entry peer)).move
            (Custody.holds_release_self _ _) rfl
      simp only [socketsStep, holding] at exact ⊢
      exact ⟨exact, closed.known, closed.connecting, closed.closes, closed.uses⟩

theorem connect
    (kept : sockets.Kept numNodes)
    {fd : Nat}
    (isFree : sockets.opened fd = none) :
    (socketsStep sockets (.connect fd)).Kept numNodes := by
  cases connecting : sockets.keepaliveThread with
  | connecting peer =>
      have exact :
          Custody.Exact SocketPlace.peer
            (socketsStep sockets (.connect fd)).custody := by
        rw [custody_connect connecting]
        refine kept.exact.acquire ?_ isFree
        simp only [Sockets.custody, connecting, KeepaliveThread.held]
      simp only [socketsStep, connecting] at exact ⊢
      exact
        ⟨exact,
          fun isOpen =>
            kept.known_of_update (kept.connecting connecting) isOpen,
          by simp, kept.closes, kept.uses⟩
  | _ => simpa only [socketsStep, connecting] using kept

/-- The store keeps custody exact because what it overwrites stays open. -/
theorem exact_storeConnected
    (kept : sockets.Kept numNodes)
    {peer : UInt8}
    {fd : Nat}
    (holding : sockets.keepaliveThread = .holding peer fd) :
    Custody.Exact SocketPlace.peer
      (socketsStep sockets .storeConnected).custody := by
  cases isEntry : sockets.tcpSockfd peer with
  | none =>
      rw [custody_storeConnected_of_none holding isEntry]
      exact kept.exact.move isEntry rfl
  | some old =>
      rw [custody_storeConnected_of_some holding isEntry]
      have vacant :
          sockets.custody.holds (.overwritten peer old) = none := by
        by_contra occupied
        obtain ⟨held, holds⟩ := Option.ne_none_iff_exists'.mp occupied
        have same : held = old := by
          simp only [Sockets.custody] at holds
          split at holds
          · exact (Option.some.inj holds).symm
          · simp at holds
        subst same
        have twice :
            SocketPlace.entry peer = SocketPlace.overwritten peer held :=
          kept.exact.exclusive isEntry holds
        simp at twice
      have moved :
          Custody.Exact SocketPlace.peer
            (sockets.custody.move (.entry peer) (.overwritten peer old)) :=
        kept.exact.move vacant rfl
      have entryVacant :
          (sockets.custody.move (.entry peer) (.overwritten peer old)).holds
              (.entry peer) =
            none := by
        simp [Custody.State.move]
      exact moved.move entryVacant rfl

theorem storeConnected
    (kept : sockets.Kept numNodes) :
    (socketsStep sockets .storeConnected).Kept numNodes := by
  cases holding : sockets.keepaliveThread with
  | holding peer fd =>
      have exact := kept.exact_storeConnected holding
      simp only [socketsStep, holding] at exact ⊢
      exact ⟨exact, kept.known, by simp, kept.closes, kept.uses⟩
  | _ => simpa only [socketsStep, holding] using kept

@[simp]
theorem keepaliveThread_closeIfCurrent
    (sockets : Sockets)
    (peer : UInt8)
    (fd : Nat) :
    (sockets.closeIfCurrent peer fd).keepaliveThread =
      sockets.keepaliveThread := by
  unfold Sockets.closeIfCurrent Sockets.closeEntry
  split
  · split <;> rfl
  · rfl

/-- The steps of the keepalive thread that open no connection. -/
theorem keepaliveStep
    (kept : sockets.Kept numNodes)
    {action : SocketAction}
    (allowed : SocketsEnabled numNodes sockets action)
    (isKeepalive :
      (∃ peer, action = .keepaliveRead peer) ∨ action = .connectFails ∨
        (∃ isDead, action = .probe isDead) ∨ action = .closeDead) :
    (socketsStep sockets action).Kept numNodes := by
  rcases isKeepalive with ⟨peer, rfl⟩ | rfl | ⟨isDead, rfl⟩ | rfl
  · cases phase : sockets.keepaliveThread with
    | idle =>
        simp only [socketsStep, phase]
        refine kept.keepalive (fun other => ?_) (fun {other} isNext => ?_)
        · rw [phase]
          split <;> rfl
        · split at isNext
          · obtain rfl := KeepaliveThread.connecting.inj isNext
            exact allowed
          · simp at isNext
    | _ => simpa only [socketsStep, phase] using kept
  · cases phase : sockets.keepaliveThread with
    | connecting peer =>
        simp only [socketsStep, phase]
        refine kept.keepalive (fun other => ?_) (by simp)
        rw [phase]
        rfl
    | _ => simpa only [socketsStep, phase] using kept
  · cases phase : sockets.keepaliveThread with
    | probing peer fd =>
        simp only [socketsStep, phase]
        refine (kept.useDescriptor peer fd).keepalive (fun other => ?_) ?_
        · rw [Sockets.useDescriptor, phase]
          split <;> rfl
        · cases isDead <;> simp
    | _ => simpa only [socketsStep, phase] using kept
  · cases phase : sockets.keepaliveThread with
    | dead peer fd =>
        simp only [socketsStep, phase]
        refine (kept.closeIfCurrent peer fd).keepalive (fun other => ?_) (by simp)
        rw [keepaliveThread_closeIfCurrent, phase]
        rfl
    | _ => simpa only [socketsStep, phase] using kept

/-- The threads of a receiver and of the transmitter are not looked at. -/
theorem ofUsers
    (kept : sockets.Kept numNodes)
    (rxThreads : UInt8 → SocketUser)
    (txThread : SocketUser) :
    { sockets with
      rxThreads := rxThreads
      txThread := txThread }.Kept numNodes :=
  ⟨kept.exact, kept.known, kept.connecting, kept.closes, kept.uses⟩

/-- Every step of every thread keeps it. -/
theorem step
    (kept : sockets.Kept numNodes)
    {action : SocketAction}
    (allowed : SocketsEnabled numNodes sockets action) :
    (socketsStep sockets action).Kept numNodes := by
  cases action with
  | accept peer fd => exact kept.accept allowed.1 allowed.2
  | storeAccepted => exact kept.storeAccepted
  | keepaliveRead peer =>
      exact kept.keepaliveStep allowed (.inl ⟨peer, rfl⟩)
  | connect fd => exact kept.connect allowed
  | connectFails => exact kept.keepaliveStep allowed (.inr (.inl rfl))
  | storeConnected => exact kept.storeConnected
  | probe isDead =>
      exact kept.keepaliveStep allowed (.inr (.inr (.inl ⟨isDead, rfl⟩)))
  | closeDead =>
      exact kept.keepaliveStep allowed (.inr (.inr (.inr rfl)))
  | rxRead peer =>
      simp only [socketsStep]
      split
      · exact kept.ofUsers _ _
      · exact kept
  | rxRecv peer next =>
      simp only [socketsStep]
      split
      · exact (kept.useDescriptor peer _).ofUsers _ _
      · exact kept
  | rxClose peer =>
      simp only [socketsStep]
      split
      · exact (kept.closeIfCurrent peer _).ofUsers _ _
      · exact kept
  | txRead nextHop =>
      simp only [socketsStep]
      split
      · exact kept.ofUsers _ _
      · exact kept
  | txSend complete =>
      simp only [socketsStep]
      split
      · exact (kept.useDescriptor _ _).ofUsers _ _
      · exact kept
  | txClose =>
      simp only [socketsStep]
      split
      · exact (kept.closeIfCurrent _ _).ofUsers _ _
      · exact kept
  | closeTimedOut peer => exact kept.closeEntry peer

end Sockets.Kept

/-- What the accept thread holds. -/
def AcceptThread.descriptor : AcceptThread → Option Nat
  | .waiting => none
  | .holding _ fd => some fd

/-- What the keepalive thread has connected. -/
def KeepaliveThread.descriptor : KeepaliveThread → Option Nat
  | .holding _ fd => some fd
  | _ => none

/-- Every descriptor that the places of the nodes hold. -/
def Sockets.heldDescriptors
    (numNodes : UInt8)
    (sockets : Sockets) : List Nat :=
  (nodeIds numNodes).filterMap sockets.tcpSockfd ++
    sockets.acceptThread.descriptor.toList ++
    sockets.keepaliveThread.descriptor.toList ++
    sockets.overwritten.map Prod.snd

theorem length_heldDescriptors_le
    (numNodes : UInt8)
    (sockets : Sockets) :
    (sockets.heldDescriptors numNodes).length ≤
      numNodes.toNat + 2 + sockets.overwritten.length := by
  have entries :
      ((nodeIds numNodes).filterMap sockets.tcpSockfd).length ≤
        numNodes.toNat :=
    (List.length_filterMap_le _ _).trans (length_nodeIds numNodes).le
  have accepted : sockets.acceptThread.descriptor.toList.length ≤ 1 := by
    cases sockets.acceptThread.descriptor <;> simp
  have connected : sockets.keepaliveThread.descriptor.toList.length ≤ 1 := by
    cases sockets.keepaliveThread.descriptor <;> simp
  simp only [Sockets.heldDescriptors, List.length_append, List.length_map]
  omega

/-- An open descriptor is one of those. -/
theorem Sockets.Kept.mem_heldDescriptors
    {numNodes : UInt8}
    {sockets : Sockets}
    (kept : sockets.Kept numNodes.toNat)
    {fd : Nat}
    (isOpen : sockets.opened fd ≠ none) :
    fd ∈ sockets.heldDescriptors numNodes := by
  obtain ⟨peer, isPeer⟩ := Option.ne_none_iff_exists'.mp isOpen
  obtain ⟨place, holds⟩ := kept.exact.held isPeer
  simp only [Sockets.heldDescriptors, List.mem_append]
  cases place with
  | entry owner =>
      have connected : sockets.opened fd = some owner :=
        kept.opened_of_entry holds
      obtain ⟨positive, bounded⟩ := kept.known connected
      have isNode : owner ∈ nodeIds numNodes :=
        mem_nodeIds.mpr
          ⟨UInt8.lt_iff_toNat_lt.mpr positive,
            UInt8.le_iff_toNat_le.mpr bounded⟩
      exact
        .inl (.inl (.inl (List.mem_filterMap.mpr ⟨owner, isNode, holds⟩)))
  | accepted owner =>
      refine .inl (.inl (.inr ?_))
      simp only [Sockets.custody, AcceptThread.held] at holds
      cases phase : sockets.acceptThread <;>
        grind [AcceptThread.descriptor]
  | connected owner =>
      refine .inl (.inr ?_)
      simp only [Sockets.custody, KeepaliveThread.held] at holds
      cases phase : sockets.keepaliveThread <;>
        grind [KeepaliveThread.descriptor]
  | overwritten owner other =>
      simp only [Sockets.custody] at holds
      split at holds
      · rename_i recorded
        obtain rfl := Option.some.inj holds
        exact .inr (List.mem_map_of_mem recorded)
      · simp at holds

/--
In every order of the steps of the threads, with any number of nodes and any
reuse of descriptors by the kernel: every open descriptor is in the entry of
the peer that it is connected to, in the hands of the thread that got it, or
was overwritten, and is there only; no close hits a free descriptor or the
connection of another peer; a call of `recv` or `send` on what the entry still
holds goes to its peer; and the process holds one descriptor for each node,
two more, and those that were overwritten, at most.
-/
theorem descriptors_in_custody
    {numNodes : UInt8}
    {actions : List SocketAction}
    {sockets : Sockets}
    (run :
      StepRun.Run socketsStep (SocketsEnabled numNodes.toNat) socketsStart
        actions sockets) :
    Custody.Exact SocketPlace.peer sockets.custody ∧
      (∀ close ∈ sockets.closes, close.connection = some close.peer) ∧
      (∀ use ∈ sockets.uses, use.current = true →
        use.connection = some use.peer) ∧
      ∀ fds : List Nat, fds.Nodup →
        (∀ fd ∈ fds, sockets.opened fd ≠ none) →
        fds.length ≤ numNodes.toNat + 2 + sockets.overwritten.length := by
  have kept : sockets.Kept numNodes.toNat :=
    run.invariant (Sockets.Kept numNodes.toNat) .start
      fun kept allowed => kept.step allowed
  refine ⟨kept.exact, kept.closes, kept.uses, fun fds distinct areOpen => ?_⟩
  have inside : fds ⊆ sockets.heldDescriptors numNodes :=
    fun fd listed => kept.mem_heldDescriptors (areOpen fd listed)
  exact
    (List.subperm_of_subset distinct inside).length_le.trans
      (length_heldDescriptors_le numNodes sockets)

/--
The keepalive thread finds no entry for node 2; an accepted connection is
stored before the one that it makes.
-/
def connectsOverAccepted : List SocketAction :=
  [.keepaliveRead 2, .accept 2 5, .storeAccepted, .connect 6, .storeConnected]

/-- The accepted connection stays open, although no entry holds it any more. -/
theorem descriptors_in_custody_connectsOverAccepted :
    let sockets := connectsOverAccepted.foldl socketsStep socketsStart
    sockets.overwritten = [(2, 5)] ∧
      ∀ fds : List Nat, fds.Nodup →
        (∀ fd ∈ fds, sockets.opened fd ≠ none) → fds.length ≤ 6 :=
  ⟨by decide,
    (descriptors_in_custody
      (StepRun.Run.of_checkRun
        (by decide :
          StepRun.checkRun socketsStep (SocketsEnabled (3 : UInt8).toNat)
            socketsStart connectsOverAccepted = true))).2.2.2⟩

/--
The receive thread of node 2 closes the entry while the transmitter holds what
it read, and the descriptor then becomes one of node 3.
-/
def sendsToNextOwner : List SocketAction :=
  [.accept 2 5, .storeAccepted, .txRead 2, .rxRead 2, .rxRecv 2 .close,
    .rxClose 2, .accept 3 5, .storeAccepted, .txSend true]

/-- A frame for node 2 then goes to node 3. -/
example :
    (sendsToNextOwner.foldl socketsStep socketsStart).uses.getLast? =
      some
        { peer := 2
          connection := some 3
          current := false } := by
  decide

end RoutingMesh
