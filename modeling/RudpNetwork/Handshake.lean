import RudpNetwork.GameProtocol
import RudpNetwork.Server

/-!
# RudpNetwork.Handshake

The connection handshake between the two code bases: the C# client fills a
buffer with a `ConnectionStartReq` and sends all of it; the C++ server starts a
session and answers with a `ConnectionStartRsp`, which the client decodes.

Each direction meets in the bytes of the message (`startReqBytes`,
`Server.startRspBytes`): what one side writes and the other reads are both
stated about them.

## Main results

* `CSharp.writes_startReq`, `reads_startReq` — the request on its way to the server.
* `receiveNext_handshake` — the server decodes it, starts a session and answers.
* `CSharp.reads_startRsp_of_slice` — the client decodes an answer from the front of its
  buffer.
* `handshake` — both directions: the client that asked gets the id of its own session.
-/

namespace RudpNetwork

open MachineInt

/-! ## the request -/

/-- The bytes of a `ConnectionStartReq`. -/
def startReqBytes (req : ConnectionStartReq) : List U8 := Bits.pack (req.enc 0)

/-- The bytes of a start request are its encoding. -/
theorem ofList_startReqBytes (req : ConnectionStartReq) :
    Bits.ofList (startReqBytes req) = req.enc 0 :=
  Bits.ofList_pack_of_dvd (by rw [ConnectionStartReq.length_enc]; decide)

/-- A buffer that starts with a request has its bits at the start. -/
theorem slice_of_startReq {req : ConnectionStartReq} {data : List U8}
    (h : data.take 11 = startReqBytes req) : Bits.slice (Bits.ofList data) 0 88 = req.enc 0 := by
  rw [← Bits.take_eq_slice, ← ofList_startReqBytes, ← h]
  exact Bits.take_ofList data 11

/-- The first byte of a request is its command. -/
theorem headD_of_startReq {req : ConnectionStartReq} {data : List U8}
    (h : data.take 11 = startReqBytes req) : data.headD 0 = req.cmd := by
  have hbits := slice_of_startReq h
  have hlen := req.length_enc 0
  cases data with
  | nil =>
      rw [← hbits] at hlen
      contradiction
  | cons b bs =>
      have hhead := congrArg (List.take 8) hbits
      rw [← Bits.take_eq_slice, List.take_take, Bits.ofList_cons,
        List.take_append_of_le_length (by simp), List.take_of_length_le (by simp)] at hhead
      apply Bits.ofVec_inj
      rw [List.headD_cons, hhead]
      change Bits.ofNat 8 (req.cmd.setWidth 32).toNat = _
      rw [BitVec.toNat_setWidth, Nat.mod_eq_of_lt (by omega)]
      rfl

/-- The buffer that the client sends starts with the request. -/
theorem CSharp.writes_startReq (req : RudpNetwork.ConnectionStartReq) {buffer : List U8}
    (hbuffer : buffer.length = 1024) :
    ∃ c c₁ c₂, CSharp.newWriteStream buffer 1024 = .ok c ∧
      CSharp.ConnectionStartReq.serializeWrite req c = .ok (some (), c₁) ∧
      WriteStream.flush c₁ = .ok (some (), c₂) ∧
      (CSharp.getData c₂).length = 1024 ∧ (CSharp.getData c₂).take 11 = startReqBytes req := by
  have hlen := req.length_enc 0
  have hbits : (Platform.bits (byteArrayToUIntArray buffer)).length = 8192 := by
    change (Bits.ofList (byteArrayToUIntArray buffer)).length = _
    rw [ofList_byteArrayToUIntArray (by omega), Bits.length_ofList, hbuffer]
  obtain ⟨c, hinit, hroom, hrun⟩ := @WriteStream.writes_fresh UIntArray _ _ _
    (ConnectionStartReq.writes_serializeWrite req) (byteArrayToUIntArray buffer) 1024 (by decide)
    (by decide) (by rw [hbits]; decide) (by rw [hbits]; decide)
  obtain ⟨c₁, c₂, hwrite, hflush, hstored, hlen₂, -⟩ := hrun (by rw [hroom, hlen]; decide)
  have hdata : Platform.bits c₂.getData = Bits.ofList (getData c₂) :=
    (ofList_uintArrayToByteArray c₂.getData).symm
  rw [hdata] at hstored hlen₂
  rw [← newWriteStream_eq (by omega)] at hinit
  refine ⟨c, c₁, c₂, hinit, hwrite, hflush, ?_, ?_⟩
  · rw [Bits.length_ofList, hbits] at hlen₂
    omega
  · have htake := take_eq_pack hstored
    rwa [hlen] at htake

/-- The server decodes the request that a buffer starts with. -/
theorem reads_startReq {req : ConnectionStartReq} {data : Memory} {n : Nat}
    (hdata : data.length = Server.kMaxPkgLength) (hn : n ≤ Server.kMaxPkgLength) (h11 : 11 ≤ n)
    (h : data.take 11 = startReqBytes req) (o : ConnectionStartReq) :
    ∃ r, ConnectionStartReq.serialize.read (ReadStream.init data n, o) = .ok (some (), r, req) := by
  have hlen : (Platform.bits data).length = 8 * data.length := Bits.length_ofList data
  unfold Server.kMaxPkgLength at hdata hn
  have hat := @ReadStream.init_at Memory _ data n (by omega) (by omega) (by omega)
  have hN : int32 ((n : Int) * 8) = 8 * n := by
    rw [int32_eq ⟨by omega, by omega⟩]
    omega
  rw [hN] at hat
  have henc := req.length_enc 0
  obtain ⟨r, hread, -⟩ := ConnectionStartReq.sound.reads 0 req o trivial
    (ReadStream.init data n) _ _ 0 rfl hat (by rw [henc]; exact slice_of_startReq h)
    (by rw [henc]; omega)
  exact ⟨r, hread⟩

/-! ## the reply -/

/-- The client decodes the message that its buffer starts with. -/
theorem CSharp.reads_startRsp_of_slice {rsp : RudpNetwork.ConnectionStartRsp} {data : List U8}
    (hlen : data.length = 1024) (hslice : Bits.slice (Bits.ofList data) 0 24 = rsp.enc 0)
    (o : RudpNetwork.ConnectionStartRsp) :
    ∃ r r', CSharp.newReadStream data 1024 = .ok r ∧
      CSharp.ConnectionStartRsp.serializeRead (r, o) = .ok (some (), r', rsp) := by
  have henc := SessionMessage.length_enc rsp 0
  have hbits : Platform.bits (byteArrayToUIntArray data) = Bits.ofList data :=
    ofList_byteArrayToUIntArray (by omega)
  have hat := @ReadStream.init_at UIntArray _ (byteArrayToUIntArray data) 1024 (by decide)
    (by decide) (by rw [hbits, Bits.length_ofList, hlen]; decide)
  rw [hbits] at hat
  obtain ⟨r', hread, -⟩ := ConnectionStartRsp.reads_serializeRead rsp o _ _ _ 0 rfl hat
    (by rw [henc]; exact hslice) (by rw [henc]; decide)
  exact ⟨_, r', newReadStream_eq (by omega) 1024, hread⟩

/-- The client decodes the reply from a buffer that was filled up with zeros. -/
theorem CSharp.reads_startRsp (rsp o : RudpNetwork.ConnectionStartRsp) :
    ∃ r r', CSharp.newReadStream (Server.startRspBytes rsp ++ List.replicate 1021 0) 1024 = .ok r ∧
      CSharp.ConnectionStartRsp.serializeRead (r, o) = .ok (some (), r', rsp) := by
  have hlen : (Server.startRspBytes rsp ++ List.replicate 1021 0).length = 1024 := by
    rw [List.length_append, Server.length_startRspBytes, List.length_replicate]
  have henc := SessionMessage.length_enc rsp 0
  have hrsp : Bits.ofList (Server.startRspBytes rsp) = rsp.enc 0 :=
    Bits.ofList_pack_of_dvd (by rw [henc]; decide)
  refine reads_startRsp_of_slice hlen ?_ o
  rw [Bits.ofList_append, hrsp, ← Bits.take_eq_slice, ← henc, List.take_left]

/-- Whatever the buffer of the client holds is decoded. -/
theorem CSharp.reads_anything {data : List U8} (hlen : data.length = 1024)
    (o : RudpNetwork.ConnectionStartRsp) :
    ∃ r r' rsp, CSharp.newReadStream data 1024 = .ok r ∧
      CSharp.ConnectionStartRsp.serializeRead (r, o) = .ok (some (), r', rsp) := by
  have hslice : (Bits.slice (Bits.ofList data) 0 24).length = 24 := by
    rw [Bits.length_slice, Bits.length_ofList, hlen]
    rfl
  obtain ⟨rsp, hrsp⟩ := SessionMessage.exists_enc hslice
  obtain ⟨r, r', hnew, hread⟩ := reads_startRsp_of_slice hlen (hrsp 0).symm o
  exact ⟨r, r', rsp, hnew, hread⟩

/-! ## the handshake -/

namespace Server

/-- What the handshake of a client with the user `uid` leaves behind, and what the
client makes of the reply. -/
structure Connected (sv : Server) (client : Sockaddr) (uid : U64) (sv' : Server) (p : SessionPtr)
    (s : Session) (reply : List U8) : Prop where
  heap : sv'.sessions.heap p = some s
  user : s.uid = uid
  peer : Address.ofSockaddr client = .ok s.peer
  getSession : sv'.sessions.getSession s.sid = some p
  getSessionByUid : sv'.sessions.getSessionByUid uid = some p
  only : ∀ k q t, sv'.sessions.sessionMap k = some q → sv'.sessions.heap q = some t →
    t.uid = uid → k = s.sid ∧ q = p
  sent : sv'.svrSocket.sent = sv.svrSocket.sent ++ [(client, reply)]
  length : reply.length = 3
  decoded : ∀ o, ∃ r r', CSharp.newReadStream (reply ++ List.replicate 1021 0) 1024 = .ok r ∧
    CSharp.ConnectionStartRsp.serializeRead (r, o) = .ok (some (), r', { cmd := 102, sid := s.sid })

/-- Only what was sent before matters of the server's earlier state. -/
theorem Connected.of_sent {sv₁ sv sv' : Server} {client : Sockaddr} {uid : U64} {p : SessionPtr}
    {s : Session} {reply : List U8} (h : Connected sv₁ client uid sv' p s reply)
    (hsent : sv₁.svrSocket.sent = sv.svrSocket.sent) : Connected sv client uid sv' p s reply :=
  { h with sent := by rw [h.sent, hsent] }

/-- A session that was started connects its user with the address of the request. -/
theorem Started.connected {sv sv' : Server} {client : Sockaddr} {address : Address} {uid : U64}
    {p : SessionPtr} (h : sv.Started address client uid sv' p)
    (haddress : Address.ofSockaddr client = .ok address) :
    Connected sv client uid sv' p { sid := sv.sessions.nextSid, uid, peer := address }
      (startRspBytes { cmd := 102, sid := sv.sessions.nextSid }) where
  heap := h.heap
  user := rfl
  peer := haddress
  getSession := h.getSession
  getSessionByUid := h.getSessionByUid
  only k q t hk hq ht := by
    obtain ⟨t', hq', -, huid⟩ := h.live.sessions k q hk
    obtain rfl : t = t' := Option.some.inj (hq.symm.trans hq')
    -- the entry of the user names one id, and that id one session
    rw [ht, h.uidSidMap] at huid
    obtain rfl := Option.some.inj huid
    exact ⟨rfl, Option.some.inj (hk.symm.trans h.getSession)⟩
  sent := by rw [h.socket]
  length := length_startRspBytes _
  decoded o := CSharp.reads_startRsp _ o

/-- The round of `ReceivePackets` that ends its loop. -/
theorem receiveNext_idle (locals : Locals) {sv : Server} (hsock : sv.svrSocket.Working)
    (hitems : sv.svrSocket.incoming.items = []) (msg : Memory) :
    receiveNext locals (sv, msg) = .ok (false, sv, msg) := by
  have hreceive : sv.svrSocket.receivePacket .clear msg kMaxPkgLength =
      .ok (0, .clear, msg, sv.svrSocket) := by
    simp only [Socket.receivePacket, Fifo.pop_eq_none.mpr hitems, Except.bind_eq_ok_iff,
      require_eq_ok]
    exact ⟨(), hsock.handle, (), by decide, rfl⟩
  rw [receiveNext, hreceive]
  rfl

/-- The round that receives the client's buffer. -/
theorem receiveNext_handshake {sv : Server} (h : sv.Reachable) (locals : Locals)
    {client : Sockaddr} (hclient : Socket.FromInternet client) {req : ConnectionStartReq}
    (hcmd : req.cmd = 101) {bytes : List U8} (hlen : bytes.length = 1024)
    (hbytes : bytes.take 11 = startReqBytes req) {msg : Memory} (hmsg : msg.length = kMaxPkgLength)
    {rest : List Received}
    (hitems : sv.svrSocket.incoming.items = .datagram client bytes :: rest) :
    ∃ sv' msg' r p s reply, receiveNext locals (sv, msg) = .ok (true, sv', msg') ∧
      sv'.svrSocket.Working ∧ sv'.svrSocket.incoming.items = rest ∧
      receiveAll locals (sv, msg) = receiveAll locals (sv', msg') ∧
      ConnectionStartReq.serialize.read
        (ReadStream.init msg' kMaxPkgLength, locals.startReq) = .ok (some (), r, req) ∧
      Connected sv client req.uid sv' p s reply := by
  obtain ⟨hsock, hlive⟩ := h.sound
  obtain ⟨address, haddress⟩ := Socket.ofSockaddr_ok hclient
  have hne : bytes ≠ [] := by
    rintro rfl
    contradiction
  have hmin : min kMaxPkgLength bytes.length = kMaxPkgLength := by
    rw [hlen]
    rfl
  obtain ⟨data, incoming, o, r, req', sv', p, hrest, hdata, -, htake, hread, hrun, hstarted⟩ :=
    receiveNext_startReq locals hsock hlive hmsg hitems ((headD_of_startReq hbytes).trans hcmd) hne
      haddress
  rw [hmin] at htake hread
  have hstart : data.take 11 = startReqBytes req := by
    have hcut := congrArg (List.take 11) htake
    rw [List.take_take, List.take_take, show min 11 kMaxPkgLength = 11 from rfl] at hcut
    exact hcut.trans hbytes
  -- what the server read is the request that was written
  obtain ⟨r', hread'⟩ := reads_startReq hdata (le_refl _) (by decide) hstart locals.startReq
  have hresult := Except.ok.inj (hread.symm.trans hread')
  simp only [Prod.mk.injEq] at hresult
  obtain ⟨rfl, rfl, rfl⟩ := hresult
  have hsocket := hstarted.socket
  refine ⟨sv', data, r, p, _, _, hrun, ?_, ?_, ?_, hread,
    (hstarted.connected haddress).of_sent rfl⟩
  · rw [hsocket]
    exact ⟨hsock.noError, hsock.handle⟩
  · rw [hsocket]
    exact hrest
  · refine receiveAll_again hrun ?_
    rw [hsocket, Fifo.size, Fifo.size, hitems]
    exact congrArg (· + 1) (congrArg List.length hrest)

/-- Whatever sessions there are, a client that sends a request gets a session of
its own, the only one of its user, and decodes the id of that session from the
reply.  This holds for the round of `ReceivePackets` that comes to the request
and, where nothing else arrives, for the whole call. -/
theorem handshake {sv : Server} (h : sv.Reachable) (locals : Locals) {client : Sockaddr}
    (hclient : Socket.FromInternet client) (sid : U16) (uid : U64) {buffer : List U8}
    (hbuffer : buffer.length = 1024) :
    ∃ c c₁ c₂, CSharp.newWriteStream buffer 1024 = .ok c ∧
      CSharp.ConnectionStartReq.serializeWrite { cmd := 101, sid, uid } c = .ok (some (), c₁) ∧
      WriteStream.flush c₁ = .ok (some (), c₂) ∧
      (∀ msg rest, msg.length = kMaxPkgLength →
        sv.svrSocket.incoming.items = .datagram client (CSharp.getData c₂) :: rest →
        ∃ sv' msg' r p s reply, receiveNext locals (sv, msg) = .ok (true, sv', msg') ∧
          sv'.svrSocket.incoming.items = rest ∧
          receiveAll locals (sv, msg) = receiveAll locals (sv', msg') ∧
          ConnectionStartReq.serialize.read (ReadStream.init msg' kMaxPkgLength, locals.startReq) =
            .ok (some (), r, { cmd := 101, sid, uid }) ∧
          Connected sv client uid sv' p s reply) ∧
      (∀ memory, sv.svrSocket.incoming.items = [] →
        ∃ sv' p s reply,
          (sv.arrive (.datagram client (CSharp.getData c₂))).receivePackets locals memory = .ok sv' ∧
          Connected sv client uid sv' p s reply) := by
  obtain ⟨c, c₁, c₂, hinit, hwrite, hflush, hlen, hbytes⟩ :=
    CSharp.writes_startReq { cmd := 101, sid, uid } hbuffer
  refine ⟨c, c₁, c₂, hinit, hwrite, hflush, fun msg rest hmsg hitems => ?_, fun memory hidle => ?_⟩
  · obtain ⟨sv', msg', r, p, s, reply, hrun, -, hrest, hagain, hread, hconnected⟩ :=
      receiveNext_handshake h locals hclient rfl hlen hbytes hmsg hitems
    exact ⟨sv', msg', r, p, s, reply, hrun, hrest, hagain, hread, hconnected⟩
  · have hitems : (sv.arrive (.datagram client (CSharp.getData c₂))).svrSocket.incoming.items =
        [.datagram client (CSharp.getData c₂)] := by
      change sv.svrSocket.incoming.items ++ _ = _
      rw [hidle]
      rfl
    obtain ⟨sv', msg', r, p, s, reply, -, hsock', hrest, hagain, -, hconnected⟩ :=
      receiveNext_handshake (.arrive _ h) locals hclient rfl hlen hbytes
        (length_uninitArray memory _) hitems
    have hend : receiveAll locals (sv', msg') = .ok (sv', msg') :=
      Loop.loop_break (receiveNext_idle locals hsock' hrest msg')
    refine ⟨sv', p, s, reply, ?_, hconnected.of_sent rfl⟩
    rw [receivePackets, hagain, hend]
    rfl

/-- User 7 connects to an empty server. -/
theorem handshake_sample :
    ∃ c c₁ c₂ sv' p s reply, CSharp.newWriteStream (List.replicate 1024 0) 1024 = .ok c ∧
      CSharp.ConnectionStartReq.serializeWrite { cmd := 101, sid := 0, uid := 7 } c =
        .ok (some (), c₁) ∧
      WriteStream.flush c₁ = .ok (some (), c₂) ∧
      (sampleServer.arrive (.datagram (.inet 1 2) (CSharp.getData c₂))).receivePackets sampleLocals
        (fun _ => 0) = .ok sv' ∧
      Connected sampleServer (.inet 1 2) 7 sv' p s reply := by
  obtain ⟨c, c₁, c₂, hinit, hwrite, hflush, -, hserver⟩ := @handshake sampleServer
    (.start ⟨rfl, by decide⟩) sampleLocals (.inet 1 2) trivial 0 7 (List.replicate 1024 0)
    List.length_replicate
  obtain ⟨sv', p, s, reply, hrun, hconnected⟩ := hserver (fun _ => 0) rfl
  exact ⟨c, c₁, c₂, sv', p, s, reply, hinit, hwrite, hflush, hrun, hconnected⟩

end Server

end RudpNetwork
