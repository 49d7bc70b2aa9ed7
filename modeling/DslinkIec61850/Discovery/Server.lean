import DslinkIec61850.Discovery.DataDirectory
import DslinkIec61850.Report.Nodes

/-!
# The discovery of a server

`discover61850Server` (client_handler.c:1487–1642): the folders, then for every
logical node of every logical device its data objects, its data sets and its
report control blocks. The lists of the directory services are used without a
test, except for the list of logical devices.
-/

namespace DslinkIec61850

open DSLink LinkState

variable {σ W : Type} [DSLink σ]

/-- A data object (client_handler.c:1532–1548). -/
def discoverDataObject (svc : IedService W) (con : ConnId) (newLNNode : Path) (lnRef : Str)
    (s : LinkState σ W) (dataObjectName : Str) : Except Fault (LinkState σ W) := do
  let doRef := lnRef ++ '.' :: dataObjectName
  storeIn (some 129) doRef
  let s := { s with tree := createDONode s.tree newLNNode doRef dataObjectName }
  discoverDataDirectory svc con (some 129) maxDepth s (newLNNode ++ [dataObjectName]) doRef .NONE

/-- A data set (client_handler.c:1566–1577). -/
def discoverDataSet (svc : IedService W) (con : ConnId) (newLNNode : Path) (lnRef : Str)
    (s : LinkState σ W) (dataSetName : Str) : Except Fault (LinkState σ W) := do
  let dataSetRef := lnRef ++ '.' :: dataSetName
  storeIn (some 129) dataSetRef
  let (_, s) ← getDatasetInfoFromServerCreateNode svc s newLNNode con dataSetRef
  return s

/-- The reference of an RCB: `LN.RP.name` or `LN.BR.name`. -/
def rcbRefOf (isBuffered : Bool) (lnRef reportName : Str) : Str :=
  lnRef ++ (if isBuffered then ".BR.".toList else ".RP.".toList) ++ reportName

/-- A report control block (client_handler.c:1590–1603, 1612–1625). -/
def discoverReport (svc : IedService W) (con : ConnId) (node : Path) (isBuffered : Bool)
    (lnRef : Str) (s : LinkState σ W) (reportName : Str) : Except Fault (LinkState σ W) := do
  let rcbRef := rcbRefOf isBuffered lnRef reportName
  storeIn (some 200) rcbRef
  let (_, s) ← getRCBInfoAndCreateNode svc s node con rcbRef isBuffered
  return s

/-- The loop over a list that a service delivers; `NULL` is used without a test. -/
def forEach (f : LinkState σ W → Str → Except Fault (LinkState σ W))
    (reply : Option (List Str) × LinkState σ W) : Except Fault (LinkState σ W) := do
  (← deref reply.1).foldlM f reply.2

/-- A logical node (client_handler.c:1518–1633). -/
def discoverLogicalNode (svc : IedService W) (con : ConnId) (node : Path) (ld : Str)
    (s : LinkState σ W) (ln : Str) : Except Fault (LinkState σ W) := do
  let lnRef := ld ++ '/' :: ln
  storeIn (some 129) lnRef
  let newLDNode := node ++ [ldKey ld]
  let newLNNode := newLDNode ++ [ln]
  let s := { s with tree := createLNNode s.tree newLDNode lnRef ln }
  let directory := fun (s : LinkState σ W) (acsiClass : AcsiClass) =>
    s.call fun w => svc.getLogicalNodeDirectory w con lnRef acsiClass
  let s ← forEach (discoverDataObject svc con newLNNode lnRef) (directory s .dataObject)
  let s ← forEach (discoverDataSet svc con newLNNode lnRef) (directory s .dataSet)
  let s ← forEach (discoverReport svc con node false lnRef) (directory s .urcb)
  forEach (discoverReport svc con node true lnRef) (directory s .brcb)

/-- A logical device (client_handler.c:1506–1637). -/
def discoverLogicalDevice (svc : IedService W) (con : ConnId) (node : Path) (s : LinkState σ W)
    (ld : Str) : Except Fault (LinkState σ W) := do
  let s := { s with tree := ← createLDNode s.tree node ld }
  forEach (discoverLogicalNode svc con node ld)
    (s.call fun w => svc.getLogicalDeviceDirectory w con ld)

/-- `discover61850Server` (client_handler.c:1487–1642). -/
def discover61850Server (svc : IedService W) (s : LinkState σ W) (node : Path) (con : ConnId) :
    Except Fault (LinkState σ W) :=
  let s := { s with tree := createDatasetReportNodes s.tree node }
  let (deviceList, s) := s.call fun w => svc.getLogicalDeviceList w con
  match deviceList with
  | none => .ok s
  | some devices => devices.foldlM (discoverLogicalDevice svc con node) s

end DslinkIec61850
