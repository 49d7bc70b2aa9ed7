import DslinkIec61850.Link.Kit

/-!
# The status of a server

A subscription to the status of a server shows the state of its connection
(server_status.c). Connections change their state between the events of the link.

* `status_shown_run`: a subscription after any run.
-/

namespace DslinkIec61850

open DSLink LinkState Run

variable {σ W : Type} [DSLink σ] {svc : IedService W} {s s' : LinkState σ W} {k : Str}

/-! ## Subscriptions -/

/-- `IedConnectionState` (iec61850_client.h:73–78). -/
inductive IedConnectionState where
  | idle | connected | closed
  deriving DecidableEq

/-- The text shown for a state (server_status.c:25–44). -/
def IedConnectionState.text : IedConnectionState → Str
  | .idle => "Not connected".toList
  | .connected => "Connected".toList
  | .closed => "Connection closed".toList

/-- `serverSubbed` (server_status.c:12–50); the entry of `serverMap` is used without a
test. The connection is created with the server and is never `NULL`. -/
def serverSubbed (getState : W → ConnId → IedConnectionState) (s : LinkState σ W) (node : Path) :
    Except Fault (LinkState σ W) := do
  let server ← deref (s.mapGet (s.ptr node.dropLast))
  return { s with
    tree := setValue s.tree node (some (.string (getState s.world server.iedConn).text)) }

/-- An event of the link, a subscription, or something that happens to the IEDs and the
connections in between. -/
inductive StatusEvent (W : Type) where
  | link (e : LinkEvent)
  | subscribe (node : Path)
  | elapse (w : W)

/-- One such event. -/
def statusStep (svc : IedService W) (getState : W → ConnId → IedConnectionState)
    (s : LinkState σ W) : StatusEvent W → Except Fault (LinkState σ W)
  | .link e => linkEvent svc s e
  | .subscribe node =>
    match installed s.tree node DSNode.onSubscribe with
    | some .serverSubbed => serverSubbed getState s node
    | _ => .ok s
  | .elapse w => .ok { s with world := w }

/-- `ndl_connstatus` of a server. -/
def statusNode (k : Str) : Path := [k, "ndl_connstatus".toList]

/-! ## Runs -/

variable {getState : W → ConnId → IedConnectionState}

theorem EquippedInv.setWorld (h : EquippedInv s) (w : W) : EquippedInv { s with world := w } := by
  have hmaps := h.maps
  exact ⟨⟨⟨hmaps.mapDistinct, hmaps.connDistinct, hmaps.ownerDistinct, hmaps.mapBound,
    hmaps.ownerBound, hmaps.connBound, hmaps.conn, hmaps.mapped, hmaps.rooted⟩, h.rooted, h.placed,
    h.owner, h.given⟩, h.equipped⟩

theorem EquippedInv.statusStep (h : EquippedInv s) {e : StatusEvent W}
    (hs : statusStep svc getState s e = .ok s') : EquippedInv s' := by
  cases e with
  | link e => exact h.step hs
  | subscribe node =>
    unfold DslinkIec61850.statusStep at hs
    dsimp only at hs
    split at hs
    · obtain ⟨server, -, hs⟩ := bind_eq_ok.1 hs
      cases hs
      exact h.modify node fun _ => rfl
    · cases hs
      exact h
  | elapse w =>
    cases hs
    exact h.setWorld w

/-- After a subscription to the status of the server `k`: the node shows the state of the
connection `c`, and everything else is as it was. -/
structure StatusShown (getState : W → ConnId → IedConnectionState) (s s' : LinkState σ W) (k : Str)
    (c : ConnId) : Prop where
  value : valueOf s'.tree (statusNode k) = some (.string (getState s.world c).text)
  other : ∀ q, q ≠ statusNode k → lookup s'.tree q = lookup s.tree q
  rest : s' = { s with tree := s'.tree }

/-- **Status.** In every run of a link that started without servers, every server that is
there has a status node, and a subscription to it ends without a fault and shows the state
that the connection of this server has now. -/
theorem status_shown_run (h₀ : Unused s) {run : List (StatusEvent W)}
    (h : run.foldlM (statusStep svc getState) s = .ok s') (hk : hasInit srvKeyInit k = true)
    (hlive : Live s'.tree [k]) :
    ∃ c s'', serverConn s' k = some c ∧ OwnConn s' k c ∧
      statusStep svc getState s' (.subscribe (statusNode k)) = .ok s'' ∧
      StatusShown getState s' s'' k c := by
  have hinv : EquippedInv s' :=
    foldlM_invariant (fun _ _ _ _ hI hstep => hI.statusStep hstep) h h₀.equippedInv
  obtain ⟨e, he, hptr⟩ := hinv.maps.mapped k hk hlive
  have hget := hinv.maps.mapGet_eq he hptr
  have hconn : serverConn s' k = some e.2.iedConn := by
    rw [serverConn, hget]
    rfl
  have hkit := (hinv.equipped k hk hlive).kit "ndl_connstatus".toList [] (by decide)
  obtain ⟨n, hn, hfunctions⟩ :=
    Option.map_eq_some_iff.1 (hkit.trans (show kitFunctions "ndl_connstatus".toList [] =
    some (none, none, some .serverSubbed) from rfl))
  have hn : lookup s'.tree (statusNode k) = some n := hn
  have hinstalled : installed s'.tree (statusNode k) DSNode.onSubscribe = some .serverSubbed := by
    rw [installed, hn]
    exact congrArg (fun f => f.2.2) hfunctions
  let text : Json := .string (getState s'.world e.2.iedConn).text
  refine ⟨_, { s' with tree := setValue s'.tree (statusNode k) (some text) }, hconn,
    hinv.ownConn_of_serverConn hk hlive hconn, ?_, ?_, ?_, rfl⟩
  · unfold statusStep
    dsimp only
    rw [hinstalled]
    show serverSubbed getState s' (statusNode k) = _
    unfold serverSubbed
    rw [show (statusNode k).dropLast = [k] from rfl, hget]
    rfl
  · show (lookup (setValue s'.tree (statusNode k) (some text)) (statusNode k)).map DSNode.value = _
    rw [lookup_setValue, if_pos rfl, hn]
    rfl
  · intro q hq
    show lookup (setValue s'.tree (statusNode k) (some text)) q = _
    rw [lookup_setValue, if_neg hq]

/-- A server is added, its status is subscribed to, and the connection is closed. -/
def statusRun : List (StatusEvent IedConnectionState) :=
  [.link (addEvent "a"), .subscribe (statusNode (srvKey "a".toList)), .elapse .closed]

/-- The link after this run. -/
def statusLink : LinkState NodeStore IedConnectionState :=
  match statusRun.foldlM (statusStep (IedService.silent _) fun w _ => w) (rootLink .connected) with
  | .ok s => s
  | .error _ => rootLink .idle

theorem statusLink_run :
    statusRun.foldlM (statusStep (IedService.silent _) fun w _ => w) (rootLink .connected) =
      .ok statusLink := rfl

theorem status_shown_run_closed : ∃ c s'', serverConn statusLink (srvKey "a".toList) = some c ∧
    OwnConn statusLink (srvKey "a".toList) c ∧
    statusStep (IedService.silent _) (fun w _ => w) statusLink
      (.subscribe (statusNode (srvKey "a".toList))) = .ok s'' ∧
    StatusShown (fun w _ => w) statusLink s'' (srvKey "a".toList) c :=
  status_shown_run (unused_rootLink _) statusLink_run (by decide) (by decide +kernel)

end DslinkIec61850
