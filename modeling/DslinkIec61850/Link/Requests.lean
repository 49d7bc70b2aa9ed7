import DslinkIec61850.Link.ServerMap
import DslinkIec61850.Report.Delivery

/-!
# Discover and Clear

A server counts as discovered when its node has a child that is not one of its
actions (`isDiscovered`, client_handler.c:1645–1658). `discover61850Server` creates
its folders before it asks for the logical devices.

* `discovery_honest_iff`, `discoveries_honest_iff`: when being discovered says that
  the device list was read.
-/

namespace DslinkIec61850

open DSLink LinkState Run

variable {σ W : Type} [DSLink σ] {svc : IedService W} {s s' : LinkState σ W}

/-! ## Requests -/

/-- What can happen to the link: a request of a user, or a report. -/
inductive LinkRequest where
  | server (r : ServerRequest)
  | discover (server : Str)
  | clear (server : Str)
  | report (con : ConnId) (message : ReportMessage)

/-- `ndl_discoverserver` of a server. -/
def discoverNode (server : Str) : Path := [srvKey server, "ndl_discoverserver".toList]

/-- `ndl_clearserver` of a server. -/
def clearNode (server : Str) : Path := [srvKey server, "ndl_clearserver".toList]

/-- A request; one for a node that is not there has no effect. -/
def linkStep (svc : IedService W) (s : LinkState σ W) : LinkRequest → Except Fault (LinkState σ W)
  | .server r => serverStep svc s r
  | .discover server =>
    if Invokes s.tree (discoverNode server) .discoverAction then
      discoverAction svc s (discoverNode server)
    else .ok s
  | .clear server =>
    if Invokes s.tree (clearNode server) .clearServerAction then clearServerAction s
      (clearNode server)
    else .ok s
  | .report con message => handleReport s con message

/-! ## Being discovered -/

/-- The device list of the server can be read. -/
def ListRead (svc : IedService W) (s : LinkState σ W) (server : Str) : Prop :=
  ∀ entry, s.mapGet (s.ptr [srvKey server]) = some entry →
    (svc.getLogicalDeviceList s.world entry.iedConn).1.isSome = true

/-- A Discover on a server that is not discovered: without the device list it
leaves the children and the server undiscovered, and a server is discovered
afterwards only if the device list was read. -/
def DiscoverHonest (svc : IedService W) (s : LinkState σ W) (server : Str) : Prop :=
  Invokes s.tree (discoverNode server) .discoverAction →
    isDiscovered s.tree [srvKey server] = false →
    ∀ s', discoverAction svc s (discoverNode server) = .ok s' →
      (¬ ListRead svc s server →
        (∀ k, k ∈ children s'.tree [srvKey server] ↔ k ∈ children s.tree [srvKey server]) ∧
          isDiscovered s'.tree [srvKey server] = false) ∧
      (isDiscovered s'.tree [srvKey server] = true → ListRead svc s server)

theorem isDiscovered_of_child {t : σ} {server k : Str} (hlive : Live t [srvKey server, k])
    (hk : hasInit ndlKeyInit k = false) : isDiscovered t [srvKey server] = true := by
  have hsrv : hasInit srvKeyInit (List.getLastD [srvKey server] []) = true := hasInit_srvKey server
  rw [isDiscovered, hsrv, Bool.true_and, List.any_eq_true]
  exact ⟨k, (mem_children t [srvKey server] k).2 hlive, by rw [hk]; rfl⟩

/-- The folders make a server discovered. -/
theorem isDiscovered_folders (t : σ) (server : Str) :
    isDiscovered (createDatasetReportNodes t [srvKey server]) [srvKey server] = true := by
  have hlive : Live (createDatasetReportNodes t [srvKey server])
      [srvKey server, brcbFolderNodeKey] := by
    show (lookup (addChild _ [srvKey server] brcbFolderNodeKey _)
      ([srvKey server] ++ [brcbFolderNodeKey])).isSome = true
    rw [lookup_addChild_self]
    rfl
  exact isDiscovered_of_child hlive (by decide)

/-- A Discover whose device list cannot be read. -/
theorem discoverAction_unread {server : Str} {entry : Server61850}
    (hnot : isDiscovered s.tree [srvKey server] = false)
    (hentry : s.mapGet (s.ptr [srvKey server]) = some entry)
    (hread : (svc.getLogicalDeviceList s.world entry.iedConn).1 = none) :
    ∃ s', discoverAction svc s (discoverNode server) = .ok s' ∧
      s'.tree = createDatasetReportNodes s.tree [srvKey server] := by
  have hnode : (discoverNode server).dropLast = [srvKey server] := rfl
  unfold discoverAction
  rw [hnode, hnot, hentry, deref]
  simp only [Bool.false_eq_true, if_false, ok_bind, discover61850Server, call, hread]
  exact ⟨_, rfl, rfl⟩

/-- One Discover. -/
theorem discovery_honest_iff (svc : IedService W) (s : LinkState σ W) (server : Str) :
    DiscoverHonest svc s server ↔
      (Invokes s.tree (discoverNode server) .discoverAction →
        isDiscovered s.tree [srvKey server] = false → ListRead svc s server) := by
  constructor
  · intro hhonest hinv hnot
    by_contra hunread
    have hentry : ∃ entry, s.mapGet (s.ptr [srvKey server]) = some entry ∧
        (svc.getLogicalDeviceList s.world entry.iedConn).1 = none := by
      unfold ListRead at hunread
      push Not at hunread
      obtain ⟨entry, hget, hnone⟩ := hunread
      exact ⟨entry, hget, Option.not_isSome_iff_eq_none.1 (by simpa using hnone)⟩
    obtain ⟨entry, hget, hnone⟩ := hentry
    obtain ⟨s', hrun, htree⟩ := discoverAction_unread hnot hget hnone
    apply hunread
    apply (hhonest hinv hnot s' hrun).2
    rw [htree]
    exact isDiscovered_folders s.tree server
  · intro hread hinv hnot s' _
    exact ⟨fun hunread => absurd (hread hinv hnot) hunread, fun _ => hread hinv hnot⟩

/-- **Discovered.** Every Discover of a run is honest exactly when every Discover
on a server that is not discovered reads the device list. -/
theorem discoveries_honest_iff (svc : IedService W) (s : LinkState σ W) (run : List LinkRequest) :
    Along (linkStep svc)
        (fun s r => ∀ server, r = .discover server → DiscoverHonest svc s server) s run ↔
      Along (linkStep svc) (fun s r => ∀ server, r = .discover server →
        Invokes s.tree (discoverNode server) .discoverAction →
        isDiscovered s.tree [srvKey server] = false → ListRead svc s server) s run := by
  apply along_iff (J := fun _ => True)
  · exact fun _ _ _ _ _ _ => trivial
  · intro s r _
    apply forall_congr'
    intro server
    apply imp_congr_right
    intro _
    exact discovery_honest_iff svc s server
  · trivial

/-! ## A server that does not answer -/

/-- A server is added and discovered. -/
def addAndDiscover : List LinkRequest :=
  [.server (.add "a".toList "h".toList 102), .discover "a".toList]

/-- The link after the first request. -/
def oneServer : LinkState NodeStore Unit :=
  match linkStep (IedService.silent Unit) bareLink (.server (.add "a".toList "h".toList 102)) with
  | .ok s => s
  | .error _ => bareLink

/-- The folders of a discovery that failed make the server count as discovered. -/
theorem addAndDiscover_dishonest :
    ¬ Along (linkStep (IedService.silent Unit)) (fun s r => ∀ server, r = .discover server →
      DiscoverHonest (IedService.silent Unit) s server) bareLink addAndDiscover := by
  rintro ⟨-, hrest⟩
  obtain ⟨hhonest, -⟩ := hrest oneServer rfl
  have hread := (discovery_honest_iff _ _ _).1 (hhonest "a".toList rfl) (by decide +kernel)
    (by decide +kernel)
  have hentry : oneServer.mapGet (oneServer.ptr [srvKey "a".toList]) =
      some { hostname := "h".toList, tcpPort := 102, iedConn := 0 } := by decide +kernel
  cases hread _ hentry

end DslinkIec61850
