import RudpNetwork.Lib.Loop
import RudpNetwork.Packet
import RudpNetwork.Session
import RudpNetwork.Socket
import RudpNetwork.WireFormat

/-!
# RudpNetwork.Server

`Server`: the loop that takes datagrams from the socket, looks at their first
byte and starts a session for a `ConnectionStartReq`.

`ProcessStart` goes on with whatever `SerializeRead` left in the request, also
when it returned `false`; `malformedIgnored_iff` is what follows.  Logging is
left out: all it evaluates are the sender's IPv4 address, which the senders on
an IPv4 socket have, and members that were read.

## Main results

* `Reachable.sound` — what holds of the server in every run.
* `malformedIgnored_iff` — the datagrams for which a malformed request leaves no trace.
-/

namespace RudpNetwork

open MachineInt

/-- `class Server`, with the sessions of the `SessionManagerSingleton`. -/
structure Server where
  svrSocket : Socket
  sessions : SessionManager

/-- What the locals of `ProcessStart` hold before they are assigned. -/
structure Locals where
  startReq : ConnectionStartReq
  data : Nat → U8

namespace Server

/-! ## the source methods -/

/-- `kMaxPkgLength`. -/
def kMaxPkgLength : Nat := 500

/-- `BufferSize` of `ProcessStart`. -/
def bufferSize : Nat := 512

/-- `ConnectionStartRsp`, written to a fresh stream that is flushed. -/
def writeStartRsp (rsp : ConnectionStartRsp) (data : Memory) :
    Except Fault (WriteStream Memory) := do
  let writeStream ← WriteStream.init data bufferSize
  let (_, writeStream) ← ConnectionStartRsp.serialize.write rsp writeStream
  let (_, writeStream) ← WriteStream.flush writeStream
  return writeStream

/-- `ProcessStart`. A session is produced whether or not there was one, since
`need_create` is always true. -/
def processStart (locals : Locals) (sv : Server) (sender : Address) (buffer : Memory) (len : Int) :
    Except Fault Server := do
  let readStream := ReadStream.init buffer len
  let (_, _, startReq) ← ConnectionStartReq.serialize.read (readStream, locals.startReq)
  let (sessions, s) ← sv.sessions.produceSession startReq.uid
  let sessions ← sessions.setPeer s sender
  let session ← sessions.deref s
  let rsp : ConnectionStartRsp :=
    { cmd := BitVec.ofInt 8 TestPacketTypes.connectionStartRsp.value, sid := session.sid }
  let writeStream ← writeStartRsp rsp (uninitArray locals.data bufferSize)
  let (_, svrSocket) ← sv.svrSocket.sendPacket session.peer writeStream.getData
    (sizeT writeStream.getBytesProcessed)
  return { svrSocket, sessions }

/-- The `switch` on the first byte: every other command is ignored. -/
def dispatch (locals : Locals) (sv : Server) (sender : Address) (msg : Memory) (n : Int) :
    Except Fault Server :=
  let cmd := msg.headD 0
  if (cmd.toNat : Int) = TestPacketTypes.connectionStartReq.value then
    sv.processStart locals sender msg n
  else
    return sv

/-- A round of `ReceivePackets` after the call of `ReceivePacket`: `n > 0` is
`busy`. -/
def handle (locals : Locals) (sv : Server) (n : Int) (sender : Address) (msg : Memory) :
    Except Fault (Bool × (Server × Memory)) :=
  if 0 < n then do
    let sv ← sv.dispatch locals sender msg n
    return (true, sv, msg)
  else
    return (false, sv, msg)

/-- One round of `ReceivePackets`, on the server and the buffer `msg`. -/
def receiveNext (locals : Locals) : Server × Memory → Except Fault (Bool × (Server × Memory)) :=
  fun (sv, msg) => do
    let (n, sender, msg, svrSocket) ← sv.svrSocket.receivePacket .clear msg kMaxPkgLength
    handle locals { sv with svrSocket } n sender msg

/-- The loop of `ReceivePackets`; it ends where the socket has no more. -/
def receiveAll (locals : Locals) (st : Server × Memory) : Except Fault (Server × Memory) :=
  Loop.loop (receiveNext locals) (st.1.svrSocket.incoming.size + 1) st

/-- `ReceivePackets`. -/
def receivePackets (locals : Locals) (memory : Nat → U8) (sv : Server) : Except Fault Server := do
  let (sv, _) ← receiveAll locals (sv, uninitArray memory kMaxPkgLength)
  return sv

/-- `Tick`. -/
def tick (locals : Locals) (memory : Nat → U8) (sv : Server) : Except Fault Server :=
  sv.receivePackets locals memory

/-- A datagram or a failure arrives at the socket. -/
def arrive (sv : Server) (r : Received) : Server := { sv with svrSocket := sv.svrSocket.arrive r }

/-! ## the request -/

/-- `SerializeRead` of a request ends for every length, and succeeds from 11 bytes
on. -/
theorem read_startReq {msg : Memory} {n : Nat} (hmsg : msg.length = kMaxPkgLength)
    (hn : n ≤ kMaxPkgLength) (req : ConnectionStartReq) :
    ∃ o r req', ConnectionStartReq.serialize.read (ReadStream.init msg n, req) = .ok (o, r, req') ∧
      (o = some () ↔ 11 ≤ n) := by
  have hlen : (Platform.bits msg).length = 8 * msg.length := Bits.length_ofList msg
  unfold kMaxPkgLength at hmsg hn
  have hat := @ReadStream.init_at Memory _ msg n (by omega) (by omega) (by omega)
  have hN : int32 ((n : Int) * 8) = 8 * n := by
    rw [int32_eq ⟨by omega, by omega⟩]
    omega
  rw [hN] at hat
  obtain ⟨hok, hfull⟩ := ConnectionStartReq.takes _ req _ _ 0 hat (by omega)
  by_cases h11 : 11 ≤ n
  · obtain ⟨u, r, req', hrun, -⟩ := hok (by omega)
    exact ⟨some u, r, req', hrun, fun _ => h11, fun _ => rfl⟩
  · have hshort : (8 * n : Int) < (0 : Nat) + ((88 : Nat) : Int) := by
      push_cast
      omega
    obtain ⟨r, req', pos, hrun, -⟩ := hfull hshort
    exact ⟨none, r, req', hrun, fun h => (Option.some_ne_none _ h.symm).elim, fun h => absurd h h11⟩

/-! ## the reply -/

/-- The bytes of a `ConnectionStartRsp`. -/
def startRspBytes (rsp : ConnectionStartRsp) : List U8 := Bits.pack (rsp.enc 0)

/-- A reply has three bytes. -/
theorem length_startRspBytes (rsp : ConnectionStartRsp) : (startRspBytes rsp).length = 3 := by
  rw [startRspBytes, Bits.length_pack, SessionMessage.length_enc]

/-- A reply fits into its buffer, which is flushed. -/
theorem writeStartRsp_ok (rsp : ConnectionStartRsp) {data : Memory}
    (hdata : data.length = bufferSize) :
    ∃ s, writeStartRsp rsp data = .ok s ∧ s.getBytesProcessed = 3 ∧
      s.getData.take 3 = startRspBytes rsp ∧ s.getData.length = bufferSize := by
  have hbits : ∀ m : Memory, (Platform.bits m).length = 8 * m.length := Bits.length_ofList
  have hlen := rsp.length_enc 0
  unfold bufferSize at hdata
  obtain ⟨s, hinit, hroom, hrun⟩ := @WriteStream.writes_fresh Memory _ _ _
    (SessionMessage.sound.writes 0 rsp trivial) data bufferSize (by decide) (by decide)
    (by rw [hbits, hdata]; decide) (by rw [hbits, hdata]; decide)
  obtain ⟨s₁, s₂, hwrite, hflush, hstored, hlen₂, -, hbytes, -⟩ := hrun (by rw [hroom, hlen]; decide)
  refine ⟨s₂, ?_, ?_, ?_, ?_⟩
  · rw [writeStartRsp, hinit]
    refine Except.bind_eq_ok_iff.mpr ⟨_, rfl, Except.bind_eq_ok_iff.mpr ⟨_, hwrite, ?_⟩⟩
    exact Except.bind_eq_ok_iff.mpr ⟨_, hflush, rfl⟩
  · rw [hbytes, hlen]
    rfl
  · have htake := take_eq_pack hstored
    rwa [hlen] at htake
  · rw [hbits, hbits] at hlen₂
    unfold bufferSize
    omega

/-! ## a session is started -/

/-- `sv'` is `sv` after a session for `uid` was started for `sender`, who has the
socket address `dest`: the session is `p`, and its id went out in a reply. -/
structure Started (sv : Server) (sender : Address) (dest : Sockaddr) (uid : U64) (sv' : Server)
    (p : SessionPtr) : Prop where
  live : sv'.sessions.Live
  heap : sv'.sessions.heap p = some { sid := sv.sessions.nextSid, uid, peer := sender }
  getSession : sv'.sessions.getSession sv.sessions.nextSid = some p
  getSessionByUid : sv'.sessions.getSessionByUid uid = some p
  uidSidMap : sv'.sessions.uidSidMap uid = some sv.sessions.nextSid
  sidGen : sv'.sessions.sidGen = int32 (sv.sessions.sidGen + 1)
  socket : sv'.svrSocket = { sv.svrSocket with
    sent := sv.svrSocket.sent ++ [(dest, startRspBytes { cmd := 102, sid := sv.sessions.nextSid })] }

/-- Whatever was read of the request, a session is started for the `uid` it has
in the end. -/
theorem processStart_ok {locals : Locals} {sv : Server} (hsock : sv.svrSocket.Working)
    (hlive : sv.sessions.Live) {sender : Address} (hvalid : sender.isValid = true) {dest : Sockaddr}
    (hdest : Socket.sockaddr sender = some dest) {msg : Memory} {n : Nat} {o : Option Unit}
    {r : ReadStream Memory} {req : ConnectionStartReq}
    (hread : ConnectionStartReq.serialize.read (ReadStream.init msg n, locals.startReq) =
      .ok (o, r, req)) :
    ∃ sv' p, sv.processStart locals sender msg n = .ok sv' ∧ sv.Started sender dest req.uid sv' p := by
  obtain ⟨m, p, hproduce, hlive₁, hheap, hget, hgetUid, huid, hgen, -⟩ :=
    SessionManager.produceSession_live hlive req.uid
  obtain ⟨m', hpeer, hlive₂, hm'⟩ := SessionManager.setPeer_live hlive₁ hheap sender
  have hheap' : m'.heap p = some { sid := sv.sessions.nextSid, uid := req.uid, peer := sender } := by
    rw [hm']
    exact Function.update_self _ _ _
  obtain ⟨w, hwrite, hbytes, htake, hlen⟩ :=
    writeStartRsp_ok { cmd := 102, sid := sv.sessions.nextSid } (length_uninitArray locals.data _)
  obtain ⟨result, hsend⟩ := @Socket.sendPacket_ok _ hsock _ hvalid w.getData 3 (by decide)
    (by rw [hlen]; decide) (by decide) dest hdest
  rw [htake] at hsend
  obtain ⟨svrSocket, hsocket⟩ : ∃ svrSocket, svrSocket = { sv.svrSocket with
      sent := sv.svrSocket.sent ++
        [(dest, startRspBytes { cmd := 102, sid := sv.sessions.nextSid })] } := ⟨_, rfl⟩
  rw [← hsocket] at hsend
  have hderef : m'.deref p = .ok { sid := sv.sessions.nextSid, uid := req.uid, peer := sender } :=
    SessionManager.deref_eq_ok.mpr hheap'
  have hsize : sizeT w.getBytesProcessed = 3 := by
    rw [hbytes]
    rfl
  refine ⟨{ svrSocket, sessions := m' }, p, ?_, ⟨hlive₂, hheap', ?_, ?_, ?_, ?_, hsocket⟩⟩
  · simp only [processStart]
    refine Except.bind_eq_ok_iff.mpr ⟨_, hread, Except.bind_eq_ok_iff.mpr ⟨_, hproduce, ?_⟩⟩
    refine Except.bind_eq_ok_iff.mpr ⟨_, hpeer, Except.bind_eq_ok_iff.mpr ⟨_, hderef, ?_⟩⟩
    refine Except.bind_eq_ok_iff.mpr ⟨_, hwrite, ?_⟩
    rw [hsize]
    exact Except.bind_eq_ok_iff.mpr ⟨_, hsend, rfl⟩
  · rw [hm']
    exact hget
  · rw [hm']
    exact hgetUid
  · rw [hm']
    exact huid
  · rw [hm']
    exact hgen

/-! ## reachable states -/

/-- The states of a server on a working socket: at any time datagrams arrive,
`ReceivePackets` goes another round, or a session is produced or destroyed
elsewhere. -/
inductive Reachable : Server → Prop
  | start {svrSocket : Socket} (hsock : svrSocket.Working) :
      Reachable { svrSocket, sessions := .empty }
  | arrive {sv : Server} (r : Received) : Reachable sv → Reachable (sv.arrive r)
  | receiveNext {sv sv' : Server} {locals : Locals} {msg msg' : Memory} {again : Bool}
      (hmsg : msg.length = kMaxPkgLength)
      (hrun : receiveNext locals (sv, msg) = .ok (again, sv', msg')) : Reachable sv → Reachable sv'
  | call {sv : Server} {c : SessionManager.Call} {sessions : SessionManager}
      (hrun : sv.sessions.step c = .ok sessions) : Reachable sv → Reachable { sv with sessions }

/-- A round keeps the sessions live and the socket working. -/
theorem receiveNext_keeps {locals : Locals} {sv sv' : Server} {msg msg' : Memory} {again : Bool}
    (hsock : sv.svrSocket.Working) (hlive : sv.sessions.Live)
    (hrun : receiveNext locals (sv, msg) = .ok (again, sv', msg')) :
    sv'.svrSocket.Working ∧ sv'.sessions.Live := by
  obtain ⟨⟨n, sender, data, svrSocket⟩, hreceive, hrun⟩ := Except.bind_eq_ok_iff.mp hrun
  obtain ⟨⟨incoming, hsocket⟩, -, k, hn, hvalid⟩ := Socket.receivePacket_inv hreceive
  have hsock' : svrSocket.Working := by
    rw [hsocket]
    exact ⟨hsock.noError, hsock.handle⟩
  simp only [Server.handle] at hrun
  split at hrun
  · next hpos =>
      obtain ⟨sv₁, hdispatch, hrun⟩ := Except.bind_eq_ok_iff.mp hrun
      obtain ⟨-, rfl, -⟩ : true = again ∧ sv₁ = sv' ∧ data = msg' := by
        simpa using Except.pure_eq_ok_iff.mp hrun
      simp only [dispatch] at hdispatch
      split at hdispatch
      · obtain ⟨⟨o, r, req⟩, hread, -⟩ := Except.bind_eq_ok_iff.mp hdispatch
        obtain ⟨dest, hdest⟩ := Socket.sockaddr_of_valid (hvalid (by omega))
        rw [hn] at hread hdispatch
        obtain ⟨sv₂, p, hstart, hstarted⟩ := @processStart_ok locals { sv with svrSocket } hsock'
          hlive sender (hvalid (by omega)) dest hdest data k o r req hread
        obtain rfl := Except.ok.inj (hdispatch.symm.trans hstart)
        refine ⟨?_, hstarted.live⟩
        rw [hstarted.socket]
        exact ⟨hsock'.noError, hsock'.handle⟩
      · obtain rfl := Except.pure_eq_ok_iff.mp hdispatch
        exact ⟨hsock', hlive⟩
  · obtain ⟨-, rfl, -⟩ : false = again ∧ { sv with svrSocket } = sv' ∧ data = msg' := by
      simpa using Except.pure_eq_ok_iff.mp hrun
    exact ⟨hsock', hlive⟩

/-- Every server of a run has a socket that works and sessions that are live. -/
theorem Reachable.sound {sv : Server} (h : sv.Reachable) :
    sv.svrSocket.Working ∧ sv.sessions.Live := by
  induction h with
  | start hsock => exact ⟨hsock, SessionManager.empty_live⟩
  | arrive r _ ih => exact ⟨ih.1.arrive r, ih.2⟩
  | receiveNext _ hrun _ ih => exact receiveNext_keeps ih.1 ih.2 hrun
  | @call sv c sessions hrun _ ih =>
      obtain ⟨m, hrun', hlive⟩ := SessionManager.step_live ih.2 c
      obtain rfl := Except.ok.inj (hrun'.symm.trans hrun)
      exact ⟨ih.1, hlive⟩

/-! ## malformed requests -/

/-- The first `n` bytes of `msg` are a complete request. -/
def Decodes (locals : Locals) (msg : Memory) (n : Nat) : Prop :=
  msg.headD 0 = 101 ∧ ∃ r req, ConnectionStartReq.serialize.read
    (ReadStream.init msg n, locals.startReq) = .ok (some (), r, req)

/-- A datagram is a start request if its first byte says so and all eleven bytes are there. -/
theorem decodes_iff {locals : Locals} {msg : Memory} {n : Nat} (hmsg : msg.length = kMaxPkgLength)
    (hn : n ≤ kMaxPkgLength) : Decodes locals msg n ↔ msg.headD 0 = 101 ∧ 11 ≤ n := by
  obtain ⟨o, r, req, hread, ho⟩ := read_startReq hmsg hn locals.startReq
  constructor
  · rintro ⟨hcmd, r', req', hread'⟩
    obtain ⟨rfl, -⟩ := Prod.mk.inj (Except.ok.inj (hread.symm.trans hread'))
    exact ⟨hcmd, ho.mp rfl⟩
  · rintro ⟨hcmd, h11⟩
    obtain rfl := ho.mpr h11
    exact ⟨hcmd, r, req, hread⟩

/-- `ReceivePackets` handles the next `n` bytes and goes on from there; unless
they are a complete request, the sessions are as before and nothing is sent. -/
def MalformedIgnored (locals : Locals) (st : Server × Memory) (n : Nat) : Prop :=
  ∃ st', receiveNext locals st = .ok (true, st') ∧
    receiveAll locals st = receiveAll locals st' ∧
    (¬Decodes locals st'.2 n →
      st'.1.sessions = st.1.sessions ∧ st'.1.svrSocket.sent = st.1.svrSocket.sent)

/-- A datagram is received, and dispatched on its first byte. -/
theorem receiveNext_popped (locals : Locals) {sv : Server} (hsock : sv.svrSocket.Working)
    {msg : Memory} (hmsg : msg.length = kMaxPkgLength) {source : Sockaddr} {bytes : List U8}
    {incoming : Fifo Received}
    (hpop : sv.svrSocket.incoming.pop = some (.datagram source bytes, incoming))
    (hbytes : bytes ≠ []) {address : Address} (haddress : Address.ofSockaddr source = .ok address) :
    ∃ data, data.take (min kMaxPkgLength bytes.length) = bytes.take kMaxPkgLength ∧
      data.length = kMaxPkgLength ∧ data.headD 0 = bytes.headD 0 ∧
      ∀ sv', dispatch locals { sv with svrSocket := { sv.svrSocket with incoming } } address data
          (min kMaxPkgLength bytes.length : Nat) = .ok sv' →
        receiveNext locals (sv, msg) = .ok (true, sv', data) := by
  obtain ⟨hitems, -, -⟩ := Fifo.pop_eq_some hpop
  obtain ⟨data, incoming', hpop', hreceive, htake, hlen⟩ :=
    @Socket.receivePacket_datagram _ hsock .clear msg kMaxPkgLength hmsg.symm source bytes _ hitems
      hbytes (by decide) address haddress
  obtain ⟨-, rfl⟩ := Prod.mk.inj (Option.some.inj (hpop.symm.trans hpop'))
  have hpos : 0 < min kMaxPkgLength bytes.length :=
    Nat.lt_min.mpr ⟨by decide, List.length_pos_iff.mpr hbytes⟩
  refine ⟨data, htake, hlen.trans hmsg, ?_, fun sv' hdispatch => ?_⟩
  · obtain ⟨b, bs, rfl⟩ := List.exists_cons_of_ne_nil hbytes
    have hhead := congrArg List.head? htake
    rw [List.head?_take, List.head?_take, if_neg (by omega), if_neg (by decide)] at hhead
    rw [List.headD_eq_head?_getD, hhead]
    rfl
  · rw [receiveNext, hreceive]
    refine Except.bind_eq_ok_iff.mpr ⟨_, rfl, ?_⟩
    change Server.handle locals _ _ address data = _
    rw [Server.handle, if_pos (by omega)]
    exact Except.bind_eq_ok_iff.mpr ⟨_, hdispatch, rfl⟩

/-- A round of the loop takes the next datagram and dispatches it. -/
theorem receiveNext_datagram (locals : Locals) {sv : Server} (hsock : sv.svrSocket.Working)
    {msg : Memory} (hmsg : msg.length = kMaxPkgLength) {source : Sockaddr} {bytes : List U8}
    {rest : List Received} (hitems : sv.svrSocket.incoming.items = .datagram source bytes :: rest)
    (hbytes : bytes ≠ []) {address : Address} (haddress : Address.ofSockaddr source = .ok address) :
    ∃ data incoming, incoming.items = rest ∧
      data.take (min kMaxPkgLength bytes.length) = bytes.take kMaxPkgLength ∧
      data.length = kMaxPkgLength ∧ data.headD 0 = bytes.headD 0 ∧
      ∀ sv', dispatch locals { sv with svrSocket := { sv.svrSocket with incoming } } address data
          (min kMaxPkgLength bytes.length : Nat) = .ok sv' →
        receiveNext locals (sv, msg) = .ok (true, sv', data) := by
  obtain ⟨incoming, hpop, hrest⟩ := Fifo.pop_of_items hitems
  obtain ⟨data, hdata⟩ := receiveNext_popped locals hsock hmsg hpop hbytes haddress
  exact ⟨data, incoming, hrest, hdata⟩

/-- After a round that took one datagram, the loop goes on from where it is. -/
theorem receiveAll_again {locals : Locals} {st st' : Server × Memory}
    (hrun : receiveNext locals st = .ok (true, st'))
    (hsize : st'.1.svrSocket.incoming.size + 1 = st.1.svrSocket.incoming.size) :
    receiveAll locals st = receiveAll locals st' := by
  rw [receiveAll, Loop.loop_again hrun, ← hsize]
  rfl

/-- The first byte `101` leads to `ProcessStart`. -/
theorem dispatch_startReq {locals : Locals} {sv : Server} {sender : Address} {msg : Memory} {n : Int}
    (h : msg.headD 0 = 101) :
    sv.dispatch locals sender msg n = sv.processStart locals sender msg n := by
  rw [dispatch, h]
  exact if_pos (by decide)

/-- Every other first byte is ignored. -/
theorem dispatch_other {locals : Locals} {sv : Server} {sender : Address} {msg : Memory} {n : Int}
    (h : msg.headD 0 ≠ 101) : sv.dispatch locals sender msg n = .ok sv := by
  have hcmd : ¬((msg.headD 0).toNat : Int) = TestPacketTypes.connectionStartReq.value := by
    intro heq
    refine h (BitVec.eq_of_toNat_eq ?_)
    exact Int.ofNat.inj heq
  rw [dispatch]
  exact if_neg hcmd

/-- A round that receives the first byte of a request starts a session, whatever
follows. -/
theorem receiveNext_startReq (locals : Locals) {sv : Server} (hsock : sv.svrSocket.Working)
    (hlive : sv.sessions.Live) {msg : Memory} (hmsg : msg.length = kMaxPkgLength)
    {source : Sockaddr} {bytes : List U8} {rest : List Received}
    (hitems : sv.svrSocket.incoming.items = .datagram source bytes :: rest)
    (hcmd : bytes.headD 0 = 101) (hbytes : bytes ≠ []) {address : Address}
    (haddress : Address.ofSockaddr source = .ok address) :
    ∃ data incoming o r req sv' p, incoming.items = rest ∧ data.length = kMaxPkgLength ∧
      data.headD 0 = 101 ∧
      data.take (min kMaxPkgLength bytes.length) = bytes.take kMaxPkgLength ∧
      ConnectionStartReq.serialize.read
        (ReadStream.init data (min kMaxPkgLength bytes.length : Nat), locals.startReq) =
          .ok (o, r, req) ∧
      receiveNext locals (sv, msg) = .ok (true, sv', data) ∧
      Started { sv with svrSocket := { sv.svrSocket with incoming } }
        address source req.uid sv' p := by
  obtain ⟨data, incoming, hrest, htake, hlen, hhead, hrun⟩ :=
    receiveNext_datagram locals hsock hmsg hitems hbytes haddress
  obtain ⟨o, r, req, hread, -⟩ := read_startReq hlen (Nat.min_le_left _ bytes.length) locals.startReq
  obtain ⟨sv', p, hstart, hstarted⟩ := @processStart_ok locals
    { sv with svrSocket := { sv.svrSocket with incoming } } ⟨hsock.noError, hsock.handle⟩ hlive address
    (Address.isValid_ofSockaddr haddress) source (Socket.sockaddr_ofSockaddr haddress) data _ o r req
    hread
  have hdata : data.headD 0 = 101 := hhead.trans hcmd
  exact ⟨data, incoming, o, r, req, sv', p, hrest, hlen, hdata, htake, hread,
    hrun sv' ((dispatch_startReq hdata).trans hstart), hstarted⟩

/-- A truncated request is not ignored. -/
theorem not_malformedIgnored (locals : Locals) {sv : Server} (hsock : sv.svrSocket.Working)
    (hlive : sv.sessions.Live) {msg : Memory} (hmsg : msg.length = kMaxPkgLength)
    {source : Sockaddr} (hsource : Socket.FromInternet source) {bytes : List U8}
    {rest : List Received} (hitems : sv.svrSocket.incoming.items = .datagram source bytes :: rest)
    (hbytes : bytes ≠ []) (hcmd : bytes.headD 0 = 101) (hshort : bytes.length < 11) :
    ¬MalformedIgnored locals (sv, msg) (min kMaxPkgLength bytes.length) := by
  rintro ⟨st', hrun, -, hunchanged⟩
  obtain ⟨address, haddress⟩ := Socket.ofSockaddr_ok hsource
  obtain ⟨data, incoming, o, r, req, sv', p, -, hlen, -, -, -, hrun', hstarted⟩ :=
    receiveNext_startReq locals hsock hlive hmsg hitems hcmd hbytes haddress
  obtain ⟨-, rfl⟩ := Prod.mk.inj (Except.ok.inj (hrun'.symm.trans hrun))
  obtain ⟨hsessions, -⟩ := hunchanged fun hdecodes => by
    have h11 := ((decodes_iff hlen (Nat.min_le_left _ _)).mp hdecodes).2
    omega
  have hgen := hstarted.sidGen
  rw [hsessions] at hgen
  exact int32_add_one_ne _ hgen.symm

/-- A datagram that is not a complete request leaves the sessions alone exactly
when it does not start like one. -/
theorem malformedIgnored_iff {sv : Server} (h : sv.Reachable) (locals : Locals) {msg : Memory}
    (hmsg : msg.length = kMaxPkgLength) {source : Sockaddr} (hsource : Socket.FromInternet source)
    {bytes : List U8} (hbytes : bytes ≠ []) {rest : List Received}
    (hitems : sv.svrSocket.incoming.items = .datagram source bytes :: rest) :
    MalformedIgnored locals (sv, msg) (min kMaxPkgLength bytes.length) ↔
      bytes.headD 0 ≠ 101 ∨ 11 ≤ bytes.length := by
  obtain ⟨hsock, hlive⟩ := h.sound
  have hsize : rest.length + 1 = sv.svrSocket.incoming.size := by
    rw [Fifo.size, hitems, List.length_cons]
  constructor
  · intro hignored
    by_contra hcond
    rw [not_or, not_not, Nat.not_le] at hcond
    exact not_malformedIgnored locals hsock hlive hmsg hsource hitems hbytes hcond.1 hcond.2 hignored
  · intro hcond
    obtain ⟨address, haddress⟩ := Socket.ofSockaddr_ok hsource
    by_cases hcmd : bytes.headD 0 = 101
    · obtain ⟨data, incoming, o, r, req, sv', p, hrest, hlen, hdata, -, -, hrun, hstarted⟩ :=
        receiveNext_startReq locals hsock hlive hmsg hitems hcmd hbytes haddress
      refine ⟨(sv', data), hrun, receiveAll_again hrun ?_, fun hnot => ?_⟩
      · rw [hstarted.socket, ← hsize, ← hrest]
        rfl
      · have h11 : 11 ≤ bytes.length := hcond.resolve_left (not_not_intro hcmd)
        refine absurd ((decodes_iff hlen (Nat.min_le_left _ _)).mpr ⟨hdata, ?_⟩) hnot
        exact Nat.le_min.mpr ⟨by decide, h11⟩
    · obtain ⟨data, incoming, hrest, -, -, hhead, hnext⟩ :=
        receiveNext_datagram locals hsock hmsg hitems hbytes haddress
      have hother : data.headD 0 ≠ 101 := by
        rw [hhead]
        exact hcmd
      have hrun := hnext _ (dispatch_other hother)
      refine ⟨_, hrun, receiveAll_again hrun ?_, fun _ => ⟨rfl, rfl⟩⟩
      rw [← hsize, ← hrest]
      rfl

/-- A server at rest. -/
def sampleServer : Server where
  svrSocket := { error := .none, socket := 3, incoming := .empty, sent := [], sendto := fun _ => 3 }
  sessions := .empty

/-- Locals that hold zeros. -/
def sampleLocals : Locals := { startReq := { cmd := 0, sid := 0, uid := 0 }, data := fun _ => 0 }

/-- A heartbeat of one byte is ignored. -/
theorem malformedIgnored_heartbeat :
    MalformedIgnored sampleLocals (sampleServer.arrive (.datagram (.inet 0 0) [105]),
      uninitArray (fun _ => 0) kMaxPkgLength) (min kMaxPkgLength 1) :=
  (@malformedIgnored_iff _ (.arrive _ (.start ⟨rfl, by decide⟩)) sampleLocals _
    (length_uninitArray _ _) (.inet 0 0) trivial [105] (by decide) [] rfl).mpr (.inl (by decide))

/-- A start request of one byte is not ignored. -/
theorem not_malformedIgnored_truncated :
    ¬MalformedIgnored sampleLocals (sampleServer.arrive (.datagram (.inet 0 0) [101]),
      uninitArray (fun _ => 0) kMaxPkgLength) (min kMaxPkgLength 1) :=
  @not_malformedIgnored sampleLocals _ ⟨rfl, by decide⟩ SessionManager.empty_live _
    (length_uninitArray _ _) (.inet 0 0) trivial [101] [] rfl (by decide) (by decide) (by decide)

end Server

end RudpNetwork
