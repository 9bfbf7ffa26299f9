import GbfLibrary.Enet.HandleCalls
import GbfLibrary.Thp.PoolCalls

/-!
# Calls that lock network handles

The public functions of `tcp_client.c`, `tcp_server.c` and `udp_cs.c`, as one thread runs them.
Whatever they read and no lock depends on is an answer of the world.
-/

set_option autoImplicit false

namespace GbfLibrary.Enet.Calls

open Lock Handles Call

def ENET_DEFAULT_SOCKET_BUFFER : Int := 64 * 1024

/-- The object of a handle, with the magic number of its kind or not. -/
def getObject (kind : EnetObject) (handle : Nat) : Call Bool := do
  let object ← object handle
  whenever (object = .null) Code.fault
  return object = kind

def getTcpClientObject : Nat → Call Bool := getObject .tcpClient

def getTcpServerObject : Nat → Call Bool := getObject .tcpServer

def getUdpObject : Nat → Call Bool := getObject .udp

/-- The label `bail`. -/
def bail (handle : Nat) (rc : Status) : Call Status := do
  let _ ← handleUnlock handle
  return rc

/-!
## Clients
-/

def tcpClientCreateRecvThread (client : Nat) : Call Status := do
  let found ← getTcpClientObject client
  whenever (found = false) Code.fault
  outcome

/-- `enet_tcp_client_connect`. -/
def tcpClientConnect (client : Nat) : Call Status := do
  let rc ← handleRlock client
  if rc ≠ .ok then return .invHandle
  let found ← getTcpClientObject client
  if found = false then bail client .handleTypeMismatch
  else do
    let fd ← answer
    let created ← (if fd = 0 then outcome else pure .ok)
    if created ≠ .ok then bail client created
    else do
      let _ ← outcome -- `enet_set_socket_nonblock`
      let _ ← answer -- `connect`
      let selected ← answer
      let _ ← outcome -- `enet_set_socket_blocking`
      if selected ≤ 0 then do
        let error ← answer
        let _ ← answer -- `closesocket`
        let _ ← outcome -- `lbs_wait_thread`
        bail client (if selected = 0 then .timeOut else .ofCode error)
      else do
        let rc ← tcpClientCreateRecvThread client
        bail client rc

/-- `enet_tcp_client_disconnect`. -/
def tcpClientDisconnect (handle : Nat) : Call Status := do
  let rc ← handleWlock handle
  if rc ≠ .ok then return rc
  let found ← getTcpClientObject handle
  if found = false then bail handle .handleTypeMismatch
  else do
    let closed ← answer
    if closed = -1 then bail handle .sockError
    else do
      let _ ← outcome -- `lbs_wait_thread`
      bail handle .ok

/-- `enet_delete_tcp_client`. -/
def deleteTcpClient (handle : Nat) : Call Status := do
  let rc ← handleRlock handle
  if rc ≠ .ok then return rc
  let found ← getTcpClientObject handle
  if found = false then bail handle .handleTypeMismatch
  else do
    let _ ← handleUnlock handle
    deleteHandle handle
    return rc

/-- What is behind the label `retry`, which is jumped to once at most. -/
def tcpClientRetry (handle : Nat) : Call Status := do
  let rc ← outcome
  if rc ≠ .ok then do
    let connected ← tcpClientConnect handle
    if connected = .ok then outcome else return rc
  else return rc

/-- `enet_tcp_client_send`. With an object of another kind the handle stays locked. -/
def tcpClientSend (handle : Nat) (buf size : Int) : Call Status := do
  if buf = 0 ∨ size = 0 then return .invParam
  if ENET_DEFAULT_SOCKET_BUFFER < size then return .bufferTooLarge
  let rc ← handleRlock handle
  if rc ≠ .ok then return rc
  let found ← getTcpClientObject handle
  if found = false then return .handleTypeMismatch
  let _ ← handleUnlock handle
  tcpClientRetry handle

/-!
## Servers
-/

/-- `enet_delete_tcp_server_object` with the pool of the object. -/
def deleteTcpServerObject (workerPool : Nat) : Call Unit :=
  whenever (workerPool ≠ 0) (do
    let _ ← Thp.Calls.deleteThreadPool workerPool)

/-- `enet_new_tcp_server_object`: the status, and the pool of the object. -/
def newTcpServerObject (flag : Nat) : Call (Status × Nat) := do
  let out ← answer
  if out = 0 then return (.noMemory, 0)
  let tree ← outcome
  if tree ≠ .ok then do
    deleteTcpServerObject 0
    return (.noMemory, 0)
  else do
    let (rc, pool) ← Thp.Calls.newPool (if flag % 2 ^ 16 = 0 then 10 else flag % 2 ^ 16)
    if rc ≠ .ok then do
      deleteTcpServerObject 0
      return (rc, 0)
    else do
      let rc ← outcome
      if rc ≠ .ok then do
        deleteTcpServerObject pool
        return (rc, 0)
      else return (.ok, pool)

def createTcpListenThread (server : Nat) : Call Status := do
  let found ← getTcpServerObject server
  whenever (found = false) Code.fault
  let listener ← answer
  if listener = 0 ∨ listener = -1 then return .winError
  return .ok

/-- `enet_new_tcp_server`. -/
def newTcpServer (flag : Nat) : Call Status := do
  let rc ← outcome
  if rc ≠ .ok then return rc
  let rc ← outcome
  if rc ≠ .ok then return rc
  let out ← newHandle
  if out = 0 then return .noMemory
  let (rc, pool) ← newTcpServerObject flag
  if rc ≠ .ok then do
    deleteHandle out
    return rc
  else do
    let rc ← createTcpListenThread out
    if rc ≠ .ok then do
      deleteHandle out
      deleteTcpServerObject pool
      return rc
    else return .ok

/-- `enet_is_valid_tcp_client`. -/
def isValidTcpClient (client : Int) : Call Bool := do
  if client = 0 then return false
  let node ← answer
  return node ≠ 0

/-- `enet_tcp_server_wait_packet`. -/
def tcpServerWaitPacket (server : Nat) (client size : Int) : Call Status := do
  let rc ← handleRlock server
  if rc ≠ .ok then return .invHandle
  let found ← getTcpServerObject server
  if found = false then bail server .invHandle
  else do
    let useBuffer ← answer
    if useBuffer = 0 then bail server .invFlag
    else do
      let bufferSize ← field client
      if ENET_DEFAULT_SOCKET_BUFFER < size + bufferSize then bail server .bufferTooLarge
      else do
        let valid ← isValidTcpClient client
        if valid = false then bail server .invHandle
        else bail server .ok

/-- `enet_start_tcp_server`. With an object of another kind the handle stays locked. -/
def startTcpServer (server : Nat) : Call Status := do
  let rc ← handleRlock server
  if rc ≠ .ok then return .invHandle
  let found ← getTcpServerObject server
  if found = false then return .invHandle
  let st ← answer
  if st = -1 then do
    let error ← answer
    bail server (.ofCode error)
  else do
    let rc ← outcome
    if rc ≠ .ok then bail server rc
    else do
      let workerPool ← answer
      let rc ← Thp.Calls.startThreadPool workerPool.toNat
      if rc ≠ .ok then do
        let _ ← outcome -- `lbs_suspend_thread`
        bail server rc
      else bail server .ok

/-- `enet_stop_tcp_server`. -/
def stopTcpServer (server : Nat) : Call Status := do
  let rc ← handleWlock server
  if rc ≠ .ok then return .invHandle
  let found ← getTcpServerObject server
  if found = false then bail server .handleTypeMismatch
  else do
    let rc ← outcome
    if rc ≠ .ok then bail server rc
    else do
      let workerPool ← answer
      let rc ← Thp.Calls.stopThreadPool workerPool.toNat
      bail server rc

/-- `enet_delete_tcp_server`. -/
def deleteTcpServer (server : Nat) : Call Status := do
  let rc ← handleWlock server
  if rc ≠ .ok then return .invHandle
  let found ← getTcpServerObject server
  if found = false then bail server .handleTypeMismatch
  else do
    let workerPool ← answer
    deleteTcpServerObject workerPool.toNat
    let _ ← handleUnlock server
    deleteHandle server
    return .ok

/-- `enet_disconnect_client_from_tcp_server`. -/
def disconnectClientFromTcpServer (server : Nat) (client : Int) : Call Status := do
  if client = 0 then return .invParam
  let rc ← handleWlock server
  if rc ≠ .ok then return rc
  let found ← getTcpServerObject server
  if found = false then bail server .invHandle
  else do
    let valid ← isValidTcpClient client
    if valid = false then bail server .invHandle
    else do
      let _ ← answer -- `closesocket`
      bail server .ok

/-- `enet_tcp_server_send_to_client`. -/
def tcpServerSendToClient (server : Nat) (client data size : Int) : Call Status := do
  if data = 0 ∨ size = 0 then return .invParam
  let rc ← handleRlock server
  if rc ≠ .ok then return rc
  let found ← getTcpServerObject server
  if found = false then bail server .invHandle
  else do
    let usePacket ← answer
    if ENET_DEFAULT_SOCKET_BUFFER < size ∧ usePacket ≠ 0 then bail server .bufferTooLarge
    else do
      let valid ← isValidTcpClient client
      if valid = false then bail server .invHandle
      else do
        let _ ← handleUnlock server
        outcome

/-- `enet_tcp_server_get_client_count`. -/
def tcpServerGetClientCount (server : Nat) (count : Int) : Call Status := do
  if count = 0 then return .invParam
  let rc ← handleRlock server
  if rc ≠ .ok then return rc
  let found ← getTcpServerObject server
  if found = false then bail server .invHandle
  else do
    let _ ← answer
    bail server .ok

/-!
## Datagrams
-/

def udpCreateListenThread (udp : Nat) : Call Status := do
  let found ← getUdpObject udp
  whenever (found = false) Code.fault
  let thread ← answer
  if thread = -1 then return .winError
  return .ok

/-- `enet_new_udp`; `udp` is the pointer. -/
def newUdp (port udp : Int) : Call Status := do
  if port = 0 ∨ udp = 0 then return .invParam
  let rc ← outcome
  if rc ≠ .ok then return rc
  let object ← answer
  if object = 0 then return .noMemory
  let out ← newHandle
  if out = 0 then return .noMemory
  let res ← answer
  if res = -1 then do
    deleteHandle out
    return .sockError
  else do
    let rc ← udpCreateListenThread out
    if rc ≠ .ok then do
      deleteHandle out
      return rc
    else return .ok

/-- `enet_udp_set_target`. -/
def udpSetTarget (udp : Nat) (ip port : Int) : Call Status := do
  if ip = 0 ∨ port = 0 then return .invParam
  let rc ← handleRlock udp
  if rc ≠ .ok then return rc
  let found ← getUdpObject udp
  whenever (found = false) Code.fault
  bail udp .ok

/-- `enet_udp_send`. -/
def udpSend (udp : Nat) (data size : Int) : Call Status := do
  if data = 0 ∨ size = 0 then return .invParam
  if ENET_DEFAULT_SOCKET_BUFFER < size then return .bufferTooLarge
  let rc ← handleRlock udp
  if rc ≠ .ok then return rc
  let found ← getUdpObject udp
  whenever (found = false) Code.fault
  let _ ← handleUnlock udp
  let len ← answer
  if len = -1 ∨ len = 0 then return .sockError
  return .ok

/-- `enet_udp_broadcast`. -/
def udpBroadcast (udp : Nat) (data size : Int) : Call Status := do
  if data = 0 ∨ size = 0 then return .invParam
  if ENET_DEFAULT_SOCKET_BUFFER < size then return .bufferTooLarge
  let rc ← handleRlock udp
  if rc ≠ .ok then return rc
  let found ← getUdpObject udp
  if found = false then bail udp .handleTypeMismatch
  else do
    let _ ← handleUnlock udp
    let _ ← outcome -- `enet_udp_socket_broadcast`
    return .ok

/-- `enet_udp_send_to`. -/
def udpSendTo (udp : Nat) (ip port size : Int) : Call Status := do
  if ip = 0 ∨ port = 0 then return .invParam
  if ENET_DEFAULT_SOCKET_BUFFER < size then return .bufferTooLarge
  let rc ← handleRlock udp
  if rc ≠ .ok then return rc
  bail udp .ok

/-- `enet_udp_send_back`. -/
def udpSendBack (udp : Nat) (data size : Int) : Call Status := do
  if size = 0 ∨ data = 0 then return .invParam
  if ENET_DEFAULT_SOCKET_BUFFER < size then return .bufferTooLarge
  let rc ← handleRlock udp
  if rc ≠ .ok then return rc
  let found ← getUdpObject udp
  if found = false then bail udp .handleTypeMismatch
  else bail udp .ok

/-- `enet_delete_udp`. -/
def deleteUdp (udp : Nat) : Call Status := do
  let rc ← handleWlock udp
  if rc ≠ .ok then return rc
  let found ← getUdpObject udp
  if found = false then bail udp .handleTypeMismatch
  else do
    let _ ← handleUnlock udp
    deleteHandle udp
    return .ok

/-!
## What they give back
-/

section Kept

variable {pre : Accounts → Prop} {before : Accounts → Accounts} {handle : Nat}

theorem idle_of_settled (handle : Nat) (accounts : Accounts) (settled : Settled accounts) :
    Idle (.enet handle) accounts := (settled handle).1

private theorem getObject_turns (kind : EnetObject) (handle : Nat) :
    Turns pre before (getObject kind handle) fun _ => before :=
  .bind (.ask _) fun _ => .bind (whenever_turns fun _ => .fault) fun _ => .pure rfl

private theorem isValidTcpClient_turns (client : Int) : Turns pre before (isValidTcpClient client) fun _ => before :=
  .ite (fun _ => .pure rfl) fun _ => .bind (.ask _) fun _ => .pure rfl

theorem unlock_read (handle : Nat) : Turns Settled (reading .enet handle) (handleUnlock handle) fun _ => id :=
  handleUnlock_reading (idle_of_settled handle)

theorem bail_read (rc : Status) : Turns Settled (reading .enet handle) (bail handle rc) fun _ => id :=
  thenUnlock (unlock_read handle)

private theorem bail_write (rc : Status) : Turns pre (writing .enet handle) (bail handle rc) fun _ => id :=
  thenUnlock (handleUnlock_writing handle)

/-- A handle is locked to read, and the code gives it back. -/
theorem readLocked {α : Type} {failed : Status → α} {body : Call α}
    (turns : Turns Settled (reading .enet handle) body fun _ => id) :
    Keeps Settled (do
      let rc ← handleRlock handle
      if rc ≠ .ok then return failed rc
      body) :=
  (handleRlock_takes (idle_of_settled handle)).keeps turns

/-- A handle is locked to write, and the code gives it back. -/
theorem writeLocked {α : Type} {failed : Status → α} {body : Call α}
    (turns : Turns pre (writing .enet handle) body fun _ => id) :
    Keeps pre (do
      let rc ← handleWlock handle
      if rc ≠ .ok then return failed rc
      body) :=
  (handleWlock_takes handle).keeps turns

private theorem tcpClientCreateRecvThread_turns (client : Nat) :
    Turns pre before (tcpClientCreateRecvThread client) fun _ => before :=
  .bind (getObject_turns _ _) fun _ => .bind (whenever_turns fun _ => .fault) fun _ => outcome_turns

theorem tcpClientConnect_keeps (client : Nat) : Keeps Settled (tcpClientConnect client) := by
  refine readLocked (.bind (getObject_turns _ _) fun found => .ite (fun _ => bail_read _) fun _ => ?_)
  refine .bind (.ask _) fun fd => .bind (.ite (fun _ => outcome_turns) fun _ => .pure rfl) fun created => ?_
  refine .ite (fun _ => bail_read _) fun _ => ?_
  refine .bind outcome_turns fun _ => .bind (.ask _) fun _ => .bind (.ask _) fun selected => ?_
  refine .bind outcome_turns fun _ => .ite (fun _ => ?_) fun _ => ?_
  · exact .bind (.ask _) fun error => .bind (.ask _) fun _ => .bind outcome_turns fun _ => bail_read _
  · exact .bind (tcpClientCreateRecvThread_turns client) fun rc => bail_read rc

theorem tcpClientDisconnect_keeps (handle : Nat) : Keeps pre (tcpClientDisconnect handle) := by
  refine writeLocked (.bind (getObject_turns _ _) fun found => .ite (fun _ => bail_write _) fun _ => ?_)
  refine .bind (.ask _) fun closed => .ite (fun _ => bail_write _) fun _ => ?_
  exact .bind outcome_turns fun _ => bail_write _

theorem deleteTcpClient_keeps (handle : Nat) : Keeps Settled (deleteTcpClient handle) := by
  refine .locking (handleRlock_takes (idle_of_settled handle)) (fun rc missed => ?_) fun rc got => ?_
  · rw [if_pos missed]
    exact .pure rfl
  · rw [if_neg (by simpa using got)]
    refine .bind (getObject_turns _ _) fun found => .ite (fun _ => bail_read _) fun _ => ?_
    exact .bind (unlock_read handle) fun _ => .bind (deleteHandle_turns handle) fun _ => .pure rfl

theorem tcpClientRetry_keeps (handle : Nat) : Keeps Settled (tcpClientRetry handle) := by
  refine .bind outcome_turns fun rc => .ite (fun _ => ?_) fun _ => .pure rfl
  refine .bind (tcpClientConnect_keeps handle) fun connected => ?_
  exact .ite (fun _ => outcome_turns) fun _ => .pure rfl

private theorem deleteTcpServerObject_turns (workerPool : Nat) :
    Turns pre before (deleteTcpServerObject workerPool) fun _ => before :=
  whenever_turns fun _ => .bind (.frame (Thp.Calls.deleteThreadPool_keeps workerPool)) fun _ => .pure rfl

private theorem newTcpServerObject_turns (flag : Nat) : Turns pre before (newTcpServerObject flag) fun _ => before := by
  refine .bind (.ask _) fun out => .ite (fun _ => .pure rfl) fun _ => .bind outcome_turns fun tree => ?_
  refine .ite (fun _ => .bind (deleteTcpServerObject_turns 0) fun _ => .pure rfl) fun _ => ?_
  refine .bind (.frame (Thp.Calls.newPool_keeps _)) fun created => ?_
  refine .ite (fun _ => .bind (deleteTcpServerObject_turns 0) fun _ => .pure rfl) fun _ => ?_
  refine .bind outcome_turns fun rc => .ite (fun _ => ?_) fun _ => .pure rfl
  exact .bind (deleteTcpServerObject_turns _) fun _ => .pure rfl

private theorem createTcpListenThread_turns (server : Nat) :
    Turns pre before (createTcpListenThread server) fun _ => before := by
  refine .bind (getObject_turns _ _) fun found => .bind (whenever_turns fun _ => .fault) fun _ => ?_
  exact .bind (.ask _) fun listener => .ite (fun _ => .pure rfl) fun _ => .pure rfl

theorem newTcpServer_keeps (flag : Nat) : Keeps pre (newTcpServer flag) := by
  refine .bind outcome_turns fun rc => .ite (fun _ => .pure rfl) fun _ => ?_
  refine .bind outcome_turns fun rc => .ite (fun _ => .pure rfl) fun _ => ?_
  refine .bind newHandle_keeps fun out => .ite (fun _ => .pure rfl) fun _ => ?_
  refine .bind (newTcpServerObject_turns flag) fun created => .ite (fun _ => ?_) fun _ => ?_
  · exact .bind (deleteHandle_turns out) fun _ => .pure rfl
  · refine .bind (createTcpListenThread_turns out) fun rc => .ite (fun _ => ?_) fun _ => .pure rfl
    exact .bind (deleteHandle_turns out) fun _ => .bind (deleteTcpServerObject_turns _) fun _ => .pure rfl

theorem tcpServerWaitPacket_keeps (server : Nat) (client size : Int) :
    Keeps Settled (tcpServerWaitPacket server client size) := by
  refine readLocked (.bind (getObject_turns _ _) fun found => .ite (fun _ => bail_read _) fun _ => ?_)
  refine .bind (.ask _) fun useBuffer => .ite (fun _ => bail_read _) fun _ => ?_
  refine .bind (field_turns _) fun bufferSize => .ite (fun _ => bail_read _) fun _ => ?_
  exact .bind (isValidTcpClient_turns client) fun valid => .ite (fun _ => bail_read _) fun _ => bail_read _

theorem stopTcpServer_keeps (server : Nat) : Keeps pre (stopTcpServer server) := by
  refine writeLocked (.bind (getObject_turns _ _) fun found => .ite (fun _ => bail_write _) fun _ => ?_)
  refine .bind outcome_turns fun rc => .ite (fun _ => bail_write _) fun _ => .bind (.ask _) fun workerPool => ?_
  exact .bind (.frame (Thp.Calls.stopThreadPool_keeps _)) fun rc => bail_write rc

theorem deleteTcpServer_keeps (server : Nat) : Keeps pre (deleteTcpServer server) := by
  refine writeLocked (.bind (getObject_turns _ _) fun found => .ite (fun _ => bail_write _) fun _ => ?_)
  refine .bind (.ask _) fun workerPool => .bind (deleteTcpServerObject_turns _) fun _ => ?_
  exact .bind (handleUnlock_writing server) fun _ => .bind (deleteHandle_turns server) fun _ => .pure rfl

theorem disconnectClientFromTcpServer_keeps (server : Nat) (client : Int) :
    Keeps pre (disconnectClientFromTcpServer server client) := by
  refine .ite (fun _ => .pure rfl) fun _ => writeLocked (.bind (getObject_turns _ _) fun found => ?_)
  refine .ite (fun _ => bail_write _) fun _ => .bind (isValidTcpClient_turns client) fun valid => ?_
  exact .ite (fun _ => bail_write _) fun _ => .bind (.ask _) fun _ => bail_write _

theorem tcpServerSendToClient_keeps (server : Nat) (client data size : Int) :
    Keeps Settled (tcpServerSendToClient server client data size) := by
  refine .ite (fun _ => .pure rfl) fun _ => readLocked (.bind (getObject_turns _ _) fun found => ?_)
  refine .ite (fun _ => bail_read _) fun _ => .bind (.ask _) fun usePacket => .ite (fun _ => bail_read _) fun _ => ?_
  refine .bind (isValidTcpClient_turns client) fun valid => .ite (fun _ => bail_read _) fun _ => ?_
  exact .bind (unlock_read server) fun _ => outcome_turns

theorem tcpServerGetClientCount_keeps (server : Nat) (count : Int) :
    Keeps Settled (tcpServerGetClientCount server count) := by
  refine .ite (fun _ => .pure rfl) fun _ => readLocked (.bind (getObject_turns _ _) fun found => ?_)
  exact .ite (fun _ => bail_read _) fun _ => .bind (.ask _) fun _ => bail_read _

private theorem udpCreateListenThread_turns (udp : Nat) :
    Turns pre before (udpCreateListenThread udp) fun _ => before := by
  refine .bind (getObject_turns _ _) fun found => .bind (whenever_turns fun _ => .fault) fun _ => ?_
  exact .bind (.ask _) fun thread => .ite (fun _ => .pure rfl) fun _ => .pure rfl

theorem newUdp_keeps (port udp : Int) : Keeps pre (newUdp port udp) := by
  refine .ite (fun _ => .pure rfl) fun _ => .bind outcome_turns fun rc => .ite (fun _ => .pure rfl) fun _ => ?_
  refine .bind (.ask _) fun object => .ite (fun _ => .pure rfl) fun _ => ?_
  refine .bind newHandle_keeps fun out => .ite (fun _ => .pure rfl) fun _ => .bind (.ask _) fun res => ?_
  refine .ite (fun _ => .bind (deleteHandle_turns out) fun _ => .pure rfl) fun _ => ?_
  refine .bind (udpCreateListenThread_turns out) fun rc => .ite (fun _ => ?_) fun _ => .pure rfl
  exact .bind (deleteHandle_turns out) fun _ => .pure rfl

theorem udpSetTarget_keeps (udp : Nat) (ip port : Int) : Keeps Settled (udpSetTarget udp ip port) := by
  refine .ite (fun _ => .pure rfl) fun _ => readLocked (.bind (getObject_turns _ _) fun found => ?_)
  exact .bind (whenever_turns fun _ => .fault) fun _ => bail_read _

theorem udpSend_keeps (udp : Nat) (data size : Int) : Keeps Settled (udpSend udp data size) := by
  refine .ite (fun _ => .pure rfl) fun _ => .ite (fun _ => .pure rfl) fun _ => ?_
  refine readLocked (.bind (getObject_turns _ _) fun found => .bind (whenever_turns fun _ => .fault) fun _ => ?_)
  refine .bind (unlock_read udp) fun _ => .bind (.ask _) fun len => ?_
  exact .ite (fun _ => .pure rfl) fun _ => .pure rfl

theorem udpBroadcast_keeps (udp : Nat) (data size : Int) : Keeps Settled (udpBroadcast udp data size) := by
  refine .ite (fun _ => .pure rfl) fun _ => .ite (fun _ => .pure rfl) fun _ => ?_
  refine readLocked (.bind (getObject_turns _ _) fun found => .ite (fun _ => bail_read _) fun _ => ?_)
  exact .bind (unlock_read udp) fun _ => .bind outcome_turns fun _ => .pure rfl

theorem udpSendTo_keeps (udp : Nat) (ip port size : Int) : Keeps Settled (udpSendTo udp ip port size) :=
  .ite (fun _ => .pure rfl) fun _ => .ite (fun _ => .pure rfl) fun _ => readLocked (bail_read _)

theorem udpSendBack_keeps (udp : Nat) (data size : Int) : Keeps Settled (udpSendBack udp data size) := by
  refine .ite (fun _ => .pure rfl) fun _ => .ite (fun _ => .pure rfl) fun _ => ?_
  exact readLocked (.bind (getObject_turns _ _) fun found => .ite (fun _ => bail_read _) fun _ => bail_read _)

theorem deleteUdp_keeps (udp : Nat) : Keeps pre (deleteUdp udp) := by
  refine writeLocked (.bind (getObject_turns _ _) fun found => .ite (fun _ => bail_write _) fun _ => ?_)
  exact .bind (handleUnlock_writing udp) fun _ => .bind (deleteHandle_turns udp) fun _ => .pure rfl

end Kept

end GbfLibrary.Enet.Calls
