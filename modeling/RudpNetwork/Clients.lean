import RudpNetwork.Serving

/-!
# RudpNetwork.Clients

The C# clients of `TestUDP.cs` and the server, over a network.

A client asks for a session and decodes the first datagram it gets.  The network may lose,
double and reorder datagrams, and there may be others than the clients, who may ask for
sessions as well.  `NetSocket` takes datagrams from any endpoint, and `HanldeMsg` does not
look at where they come from: a stranger's three bytes are as good to a client as the
server's.  What is said of ids is therefore said of the `guarded` clients, who hear nobody but
the server and in whose name nobody else speaks to it; nothing fails at the others either.

## Main results

* `Sound.step` -- every event that the network can bring completes, and keeps the invariant.
* `decoded_own` -- the id that a guarded client decodes is that of a session of its own.
* `decoded_distinct` -- no two guarded clients decode the same id.
-/

namespace RudpNetwork

open MachineInt
open Function (update)

/-! ## the source methods -/

namespace CSharp

/-- `NetSocket.SendData`: what goes to the server. -/
def sendData (data : List U8) (offset size : Nat) : Except Fault (List U8) := do
  require .outOfBounds (offset + size ≤ data.length)
  return (data.drop offset).take size

/-- `EchoTest`: what is sent.  The source has `uid = 1`. -/
def echoTest (uid : U64) : Except Fault (List U8) := do
  let data : List U8 := List.replicate 1024 0
  let buffer : List U8 := List.replicate 1024 0
  let writeStream ← newWriteStream buffer 1024
  let (_, writeStream) ← ConnectionStartReq.serializeWrite { cmd := 101, sid := 0, uid } writeStream
  let (_, writeStream) ← WriteStream.flush writeStream
  sendData (getData writeStream) 0 data.length

/-- `ReceieveData`: what the processor gets, where `ReceiveFrom` throws or receives a
datagram. -/
def receieveData (received : Option (List U8)) : List U8 :=
  let data : List U8 := List.replicate 1024 0
  match received with
  | none => data
  | some bytes => bytes.take 1024 ++ data.drop bytes.length

/-- `HanldeMsg`: the object that is read. -/
def hanldeMsg (data : List U8) : Except Fault RudpNetwork.ConnectionStartRsp := do
  let bufferRead := data.take 1024
  let readStream ← newReadStream bufferRead 1024
  let (_, _, readObject) ← ConnectionStartRsp.serializeRead (readStream, { cmd := 0, sid := 0 })
  return readObject

/-- A `TestUDP` with its socket: whether the thread of the socket runs, what was sent and
what was read. -/
structure TestUDP where
  isRunning : Bool
  sent : List (List U8)
  readObjects : List RudpNetwork.ConnectionStartRsp

namespace TestUDP

/-- Before `Start`. -/
def new : TestUDP where
  isRunning := false
  sent := []
  readObjects := []

/-- `EchoTest`. -/
def echoTest (t : TestUDP) (uid : U64) : Except Fault TestUDP := do
  let data ← CSharp.echoTest uid
  return { t with isRunning := true, sent := t.sent ++ [data] }

/-- The thread of the socket comes to a datagram or a failure, and `HanldeMsg` closes the
socket. -/
def receive (t : TestUDP) (received : Option (List U8)) : Except Fault TestUDP := do
  if t.isRunning then
    let readObject ← hanldeMsg (receieveData received)
    return { t with isRunning := false, readObjects := t.readObjects ++ [readObject] }
  else
    return t

end TestUDP

/-- A request is sent in a full buffer. -/
theorem echoTest_ok (uid : U64) :
    ∃ data, echoTest uid = .ok data ∧ data.length = 1024 ∧
      data.take 11 = startReqBytes { cmd := 101, sid := 0, uid } := by
  obtain ⟨c, c₁, c₂, hinit, hwrite, hflush, hlen, hbytes⟩ :=
    @writes_startReq { cmd := 101, sid := 0, uid } (List.replicate 1024 0) List.length_replicate
  have hall : (getData c₂).take 1024 = getData c₂ := List.take_of_length_le hlen.le
  have hsend : sendData (getData c₂) 0 (List.replicate 1024 (0 : U8)).length =
      .ok (getData c₂) := by
    rw [List.length_replicate]
    refine Except.bind_eq_ok_iff.mpr ⟨(), require_eq_ok.mpr hlen.ge, ?_⟩
    exact congrArg Except.ok hall
  refine ⟨getData c₂, ?_, hlen, hbytes⟩
  exact Except.bind_eq_ok_iff.mpr ⟨c, hinit, Except.bind_eq_ok_iff.mpr ⟨_, hwrite,
    Except.bind_eq_ok_iff.mpr ⟨_, hflush, hsend⟩⟩⟩

/-- A reply is read back. -/
theorem hanldeMsg_startRsp (rsp : RudpNetwork.ConnectionStartRsp) :
    hanldeMsg (receieveData (some (Server.startRspBytes rsp))) = .ok rsp := by
  have hlen := Server.length_startRspBytes rsp
  have hdata : receieveData (some (Server.startRspBytes rsp)) =
      Server.startRspBytes rsp ++ List.replicate 1021 0 := by
    rw [receieveData, List.take_of_length_le (by omega), hlen]
    rfl
  have hall : (Server.startRspBytes rsp ++ List.replicate 1021 0).take 1024 =
      Server.startRspBytes rsp ++ List.replicate 1021 0 :=
    List.take_of_length_le (by rw [List.length_append, hlen, List.length_replicate])
  obtain ⟨r, r', hinit, hread⟩ := reads_startRsp rsp { cmd := 0, sid := 0 }
  rw [hdata, hanldeMsg, hall]
  exact Except.bind_eq_ok_iff.mpr ⟨r, hinit, Except.bind_eq_ok_iff.mpr ⟨_, hread, rfl⟩⟩

/-- `ReceieveData` returns its whole buffer, whatever it received. -/
theorem length_receieveData (received : Option (List U8)) :
    (receieveData received).length = 1024 := by
  cases received with
  | none => exact List.length_replicate
  | some bytes =>
      simp only [receieveData, List.length_append, List.length_take, List.length_drop,
        List.length_replicate]
      omega

/-- Whatever arrives is read. -/
theorem hanldeMsg_ok (received : Option (List U8)) :
    ∃ rsp, hanldeMsg (receieveData received) = .ok rsp := by
  have hall : (receieveData received).take 1024 = receieveData received :=
    List.take_of_length_le (length_receieveData received).le
  obtain ⟨r, r', rsp, hinit, hread⟩ :=
    reads_anything (length_receieveData received) { cmd := 0, sid := 0 }
  rw [hanldeMsg, hall]
  exact ⟨rsp, Except.bind_eq_ok_iff.mpr ⟨r, hinit, Except.bind_eq_ok_iff.mpr ⟨_, hread, rfl⟩⟩⟩

/-- After a failure zeros are read. -/
theorem hanldeMsg_none : hanldeMsg (receieveData none) = .ok { cmd := 0, sid := 0 } := by
  have hzeros : Server.startRspBytes { cmd := 0, sid := 0 } = List.replicate 3 0 := by decide
  have hsame : receieveData none =
      receieveData (some (Server.startRspBytes { cmd := 0, sid := 0 })) := by
    rw [hzeros]
    rfl
  rw [hsame, hanldeMsg_startRsp]

end CSharp

open CSharp (TestUDP)

/-! ## the network -/

/-- Whose session a client asks for, and at which address its socket is. -/
structure User where
  uid : U64
  address : Address
  valid : address.isValid = true

/-- The request that the client of the user sends. -/
def User.request (u : User) : Request where
  uid := u.uid
  sender := u.address

/-- A server and its clients. -/
structure World (ι : Type) where
  server : Server
  client : ι → TestUDP

namespace World

variable {ι : Type}

/-- What happens: a client starts, something comes to the server or to a client, or the
main loop of the server comes round to `Tick`. -/
inductive Event (ι : Type)
  | echoTest (i : ι)
  | toServer (r : Received)
  | tick (locals : Locals) (memory : Nat → U8)
  | toClient (i : ι) (received : Option (List U8))

/-- One event. -/
def step [DecidableEq ι] (users : ι → User) (w : World ι) : Event ι → Except Fault (World ι)
  | .echoTest i => do
      let t ← (w.client i).echoTest (users i).uid
      return { w with client := update w.client i t }
  | .toServer r => .ok { w with server := w.server.arrive r }
  | .tick locals memory => do
      let server ← w.server.tick locals memory
      return { w with server }
  | .toClient i received => do
      let t ← (w.client i).receive received
      return { w with client := update w.client i t }

/-- What happens to the server. -/
def Event.ofServer : Server.Event → Event ι
  | .arrive r => .toServer r
  | .tick locals memory => .tick locals memory

/-- What happens to the server has nothing to do with the clients. -/
theorem run_ofServer [DecidableEq ι] {users : ι → User} {events : List Server.Event} {w : World ι}
    {server : Server} (h : Run.run Server.step events w.server = .ok server) :
    Run.run (step users) (events.map .ofServer) w = .ok { w with server } := by
  induction events generalizing w with
  | nil =>
      obtain rfl := Except.ok.inj h
      rfl
  | cons e events ih =>
      obtain ⟨server₁, hstep, hrest⟩ := Run.run_cons_eq_ok.mp h
      have hworld : w.step users (.ofServer e) = .ok { w with server := server₁ } := by
        cases e with
        | arrive r =>
            obtain rfl := Except.ok.inj hstep
            rfl
        | tick locals memory => exact Except.bind_eq_ok_iff.mpr ⟨server₁, hstep, rfl⟩
      exact Run.run_cons_eq_ok.mpr ⟨_, hworld, @ih { w with server := server₁ } hrest⟩

theorem client_of_ofServer [DecidableEq ι] {users : ι → User} {w w' : World ι} {e : Server.Event}
    (h : w.step users (.ofServer e) = .ok w') : w'.client = w.client := by
  cases e with
  | arrive r =>
      obtain rfl := Except.ok.inj h
      rfl
  | tick locals memory =>
      obtain ⟨server, -, hend⟩ := Except.bind_eq_ok_iff.mp h
      obtain rfl := Except.pure_eq_ok_iff.mp hend
      rfl

theorem server_of_toClient [DecidableEq ι] {users : ι → User} {w w' : World ι} {i : ι}
    {received : Option (List U8)} (h : w.step users (.toClient i received) = .ok w') :
    w'.server = w.server := by
  obtain ⟨t, -, hend⟩ := Except.bind_eq_ok_iff.mp h
  obtain rfl := Except.pure_eq_ok_iff.mp hend
  rfl

/-- What the network can do.  What comes from the address of a guarded client was sent by
the client; what comes to a guarded client was sent by the server. -/
def Possible (users : ι → User) (guarded : ι → Prop) (w : World ι) : Event ι → Prop
  | .toServer (.datagram source bytes) => Socket.FromInternet source ∧
      ∀ i, guarded i → Socket.sockaddr (users i).address = some source →
        bytes ∈ (w.client i).sent
  | .toClient i (some bytes) => guarded i →
      ∃ dest ∈ Socket.sockaddr (users i).address, (dest, bytes) ∈ w.server.svrSocket.sent
  | _ => True

/-- Request number `n + 1` is one of the user, and it was answered with this reply. -/
def Answered (log : List Request) (u : User) (rsp : ConnectionStartRsp) : Prop :=
  ∃ n, log[n]? = some u.request ∧ rsp = { cmd := 102, sid := Directory.sidAt (n + 1) }

/-- The server has served the requests of the log, and what the guarded clients have read
are replies to their own. -/
structure Sound (users : ι → User) (guarded : ι → Prop) (w : World ι) (log : List Request) :
    Prop where
  serving : w.server.Serving log
  sent : ∀ i, ∀ bytes ∈ (w.client i).sent,
    bytes.take 11 = startReqBytes { cmd := 101, sid := 0, uid := (users i).uid }
  arrived : ∀ i, guarded i → ∀ source bytes, Socket.sockaddr (users i).address = some source →
    .datagram source bytes ∈ w.server.svrSocket.incoming.accepted →
    bytes.take 11 = startReqBytes { cmd := 101, sid := 0, uid := (users i).uid }
  read : ∀ i, guarded i → ∀ rsp ∈ (w.client i).readObjects, rsp = { cmd := 0, sid := 0 } ∨
    Answered log (users i) rsp

variable {users : ι → User} {guarded : ι → Prop} {w : World ι} {log : List Request} {i : ι}

/-- What is related to a list element by element is related to one of its elements. -/
theorem exists_of_forall₂ {α β : Type} {R : α → β → Prop} {as : List α} {bs : List β}
    (h : List.Forall₂ R as bs) {b : β} (hb : b ∈ bs) : ∃ a ∈ as, R a b := by
  induction h with
  | nil => exact absurd hb List.not_mem_nil
  | @cons a b' as bs hab _ ih =>
      rcases List.mem_cons.mp hb with rfl | hb
      · exact ⟨a, List.mem_cons_self, hab⟩
      · obtain ⟨a', ha', hR⟩ := ih hb
        exact ⟨a', List.mem_cons_of_mem a ha', hR⟩

theorem Answered.mono {log' : List Request} (hlog : log <+: log') {u : User}
    {rsp : ConnectionStartRsp} (h : Answered log u rsp) : Answered log' u rsp := by
  obtain ⟨n, hn, hrsp⟩ := h
  obtain ⟨hlt, -⟩ := List.getElem?_eq_some_iff.mp hn
  obtain ⟨rest, rfl⟩ := hlog
  exact ⟨n, by rw [List.getElem?_append_left hlt, hn], hrsp⟩

/-- A request from the address of a guarded client is a request of the client. -/
theorem Sound.request (h : w.Sound users guarded log) (hi : guarded i) {r : Request} (hr : r ∈ log)
    (hsender : r.sender = (users i).address) : r = (users i).request := by
  obtain ⟨d, hd, hasks⟩ := exists_of_forall₂ h.serving.asked hr
  have hsource := Socket.sockaddr_ofSockaddr hasks.sender
  rw [hsender] at hsource
  have harrived : .datagram d.1 d.2 ∈ w.server.svrSocket.incoming.accepted := by
    refine w.server.svrSocket.incoming.delivered_isPrefix.subset ?_
    obtain ⟨received, hmem, hcontent⟩ := List.mem_filterMap.mp (List.mem_of_mem_filter hd)
    cases received with
    | failed => contradiction
    | datagram source bytes =>
        obtain rfl := Option.some.inj hcontent
        exact hmem
  have huid := hasks.uid _ (h.arrived i hi d.1 d.2 hsource harrived)
  change Request.mk r.uid r.sender = _
  rw [huid, hsender]
  rfl

/-- What the server has sent to a guarded client are replies to the client's own requests. -/
theorem Sound.answered (h : w.Sound users guarded log) (hi : guarded i)
    {dest : Sockaddr} {bytes : List U8}
    (hdest : Socket.sockaddr (users i).address = some dest)
    (hsent : (dest, bytes) ∈ w.server.svrSocket.sent) :
    ∃ rsp, bytes = Server.startRspBytes rsp ∧ Answered log (users i) rsp := by
  obtain ⟨⟨r, n⟩, hn, hreply⟩ := exists_of_forall₂ h.serving.replied hsent
  obtain ⟨hpos, hr⟩ := List.mem_zipIdx_iff_le_and_getElem?_sub.mp hn
  have haddress := Socket.ofSockaddr_sockaddr hreply.1
  rw [Socket.ofSockaddr_sockaddr hdest] at haddress
  have hsender : r.sender = (users i).address := (Except.ok.inj haddress).symm
  rw [h.request hi (List.mem_of_getElem? hr) hsender] at hr
  refine ⟨_, hreply.2, n - 1, hr, ?_⟩
  rw [Nat.sub_add_cancel hpos]

/-- What is handed over to a client is read, and closes its socket. -/
theorem Sound.receive (h : w.Sound users guarded log) {received : Option (List U8)}
    (hpossible : Possible users guarded w (.toClient i received)) :
    ∃ t, (w.client i).receive received = .ok t ∧ t.sent = (w.client i).sent ∧
      (guarded i → ∀ rsp ∈ t.readObjects, rsp = { cmd := 0, sid := 0 } ∨
        Answered log (users i) rsp) := by
  obtain ⟨rsp, hrun⟩ := CSharp.hanldeMsg_ok received
  have hrsp : guarded i → rsp = { cmd := 0, sid := 0 } ∨ Answered log (users i) rsp := by
    intro hi
    cases received with
    | none =>
        obtain rfl := Except.ok.inj (CSharp.hanldeMsg_none.symm.trans hrun)
        exact .inl rfl
    | some bytes =>
        obtain ⟨dest, hdest, hsent⟩ := hpossible hi
        obtain ⟨reply, rfl, hanswered⟩ := h.answered hi hdest hsent
        obtain rfl := Except.ok.inj ((CSharp.hanldeMsg_startRsp reply).symm.trans hrun)
        exact .inr hanswered
  rw [TestUDP.receive]
  cases hrunning : (w.client i).isRunning with
  | false => exact ⟨w.client i, rfl, rfl, h.read i⟩
  | true =>
      refine ⟨_, Except.bind_eq_ok_iff.mpr ⟨rsp, hrun, rfl⟩, rfl, fun hi rsp' hrsp' => ?_⟩
      rcases List.mem_append.mp hrsp' with hold | hnew
      · exact h.read i hi rsp' hold
      · obtain rfl := List.mem_singleton.mp hnew
        exact hrsp hi

/-- The server does something that takes nothing from the network. -/
theorem Sound.server (h : w.Sound users guarded log) {server : Server} {log' : List Request}
    (hlog : log <+: log') (hserving : server.Serving log')
    (harrived : ∀ i, guarded i → ∀ source bytes, Socket.sockaddr (users i).address = some source →
      .datagram source bytes ∈ server.svrSocket.incoming.accepted →
      .datagram source bytes ∈ w.server.svrSocket.incoming.accepted ∨
        bytes ∈ (w.client i).sent) :
    Sound users guarded { w with server } log' where
  serving := hserving
  sent := h.sent
  arrived i hi source bytes hsource hmem := by
    rcases harrived i hi source bytes hsource hmem with hold | hnew
    · exact h.arrived i hi source bytes hsource hold
    · exact h.sent i bytes hnew
  read i hi rsp hrsp := (h.read i hi rsp hrsp).imp_right (·.mono hlog)

/-- A client does something. -/
theorem Sound.client [DecidableEq ι] (h : w.Sound users guarded log) {t : TestUDP}
    (hsent : ∀ bytes ∈ t.sent, bytes ∈ (w.client i).sent ∨
      bytes.take 11 = startReqBytes { cmd := 101, sid := 0, uid := (users i).uid })
    (hread : guarded i → ∀ rsp ∈ t.readObjects, rsp = { cmd := 0, sid := 0 } ∨
      Answered log (users i) rsp) :
    Sound users guarded { w with client := update w.client i t } log where
  serving := h.serving
  sent := by
    refine (Function.forall_update_iff w.client (p := fun j t => ∀ bytes ∈ t.sent,
      bytes.take 11 = startReqBytes { cmd := 101, sid := 0, uid := (users j).uid })).mpr
      ⟨fun bytes hbytes => ?_, fun j _ => h.sent j⟩
    exact (hsent bytes hbytes).elim (h.sent i bytes) id
  arrived := h.arrived
  read := (Function.forall_update_iff w.client (p := fun j t => guarded j → ∀ rsp ∈ t.readObjects,
    rsp = { cmd := 0, sid := 0 } ∨ Answered log (users j) rsp)).mpr ⟨hread, fun j _ => h.read j⟩

/-- Whatever the network can do completes, and keeps the invariant. -/
theorem Sound.step [DecidableEq ι] (h : w.Sound users guarded log) {e : Event ι}
    (hpossible : Possible users guarded w e) :
    ∃ w' log', w.step users e = .ok w' ∧ log <+: log' ∧ w'.Sound users guarded log' := by
  have hsame := List.prefix_refl log
  cases e with
  | echoTest i =>
      obtain ⟨data, hrun, -, hdata⟩ := CSharp.echoTest_ok (users i).uid
      have htest : (w.client i).echoTest (users i).uid = .ok
          { w.client i with isRunning := true, sent := (w.client i).sent ++ [data] } :=
        Except.bind_eq_ok_iff.mpr ⟨data, hrun, rfl⟩
      refine ⟨_, log, Except.bind_eq_ok_iff.mpr ⟨_, htest, rfl⟩, hsame,
        h.client (fun bytes hbytes => ?_) (h.read i)⟩
      rcases List.mem_append.mp hbytes with hold | hnew
      · exact .inl hold
      · obtain rfl := List.mem_singleton.mp hnew
        exact .inr hdata
  | toServer r =>
      have hinternet : (Server.Event.arrive r).FromInternet := by
        cases r with
        | failed => trivial
        | datagram source bytes => exact hpossible.1
      obtain ⟨server, log', hrun, hlog, hserving⟩ := h.serving.step hinternet
      obtain rfl := Except.ok.inj hrun
      refine ⟨_, log', rfl, hlog, h.server hlog hserving fun i hi source bytes hsource hmem => ?_⟩
      rcases List.mem_append.mp hmem with hold | hnew
      · exact .inl hold
      · obtain rfl := List.mem_singleton.mp hnew
        exact .inr (hpossible.2 i hi hsource)
  | tick locals memory =>
      obtain ⟨server, log', hrun, hlog, hserving⟩ := h.serving.tick locals memory
      refine ⟨_, log', Except.bind_eq_ok_iff.mpr ⟨server, hrun, rfl⟩, hlog,
        h.server hlog hserving fun i hi source bytes hsource hmem => .inl ?_⟩
      rwa [Server.tick_accepted hrun] at hmem
  | toClient i received =>
      obtain ⟨t, hrun, hsent, hread⟩ := h.receive hpossible
      refine ⟨_, log, Except.bind_eq_ok_iff.mpr ⟨t, hrun, rfl⟩, hsame,
        h.client (fun bytes hbytes => .inl (hsent ▸ hbytes)) hread⟩

/-- Nothing has happened yet. -/
def new (svrSocket : Socket) : World ι where
  server := Server.new svrSocket
  client _ := TestUDP.new

/-- A new server and clients that know nothing. -/
theorem new_sound {svrSocket : Socket} (hsock : svrSocket.Working)
    (hincoming : svrSocket.incoming = .empty) (hsent : svrSocket.sent = []) :
    (new svrSocket : World ι).Sound users guarded [] where
  serving := Server.new_serving hsock hincoming hsent
  sent i bytes hbytes := absurd hbytes List.not_mem_nil
  arrived i _ source bytes _ hmem := by
    change _ ∈ svrSocket.incoming.accepted at hmem
    rw [hincoming] at hmem
    exact absurd hmem List.not_mem_nil
  read i _ rsp hrsp := absurd hrsp List.not_mem_nil

/-- Every possible run completes, and keeps the invariant. -/
theorem run_keepsSound [DecidableEq ι] {svrSocket : Socket} (hsock : svrSocket.Working)
    (hincoming : svrSocket.incoming = .empty) (hsent : svrSocket.sent = [])
    {events : List (Event ι)}
    (hevents : Run.Along (step users) (Possible users guarded) events (new svrSocket)) :
    ∃ w log, Run.run (step users) events (new svrSocket) = .ok w ∧ w.Sound users guarded log := by
  have hstep : ∀ (w : World ι) (e : Event ι), (∃ log, w.Sound users guarded log) →
      Possible users guarded w e →
      ∃ w', w.step users e = .ok w' ∧ ∃ log, w'.Sound users guarded log := by
    rintro w e ⟨log, h⟩ he
    obtain ⟨w', log', hrun, -, hsound⟩ := h.step he
    exact ⟨w', hrun, log', hsound⟩
  obtain ⟨w, hrun, log, hsound⟩ := Run.run_keeps_along hstep
    ⟨[], new_sound hsock hincoming hsent⟩ hevents
  exact ⟨w, log, hrun, hsound⟩

/-! ## what the clients know -/

/-- The requests that the server took. -/
def requests (w : World ι) : List (Sockaddr × List U8) :=
  w.server.taken.filter Server.startsRequest

theorem Sound.length_log (h : w.Sound users guarded log) : w.requests.length = log.length :=
  h.serving.asked.length_eq

/-- The user has a session, and the id is that of this session, with the address of the user,
or it is that of none any more. -/
def Holds (m : SessionManager) (u : User) (sid : U16) : Prop :=
  ∃ p s, m.Found p s ∧ s.uid = u.uid ∧
    (m.getSession sid = none ∨ m.getSession sid = some p ∧ s.peer = u.address)

/-- While no id was used twice, an id that a client has read is its own. -/
theorem Sound.holds (h : w.Sound users guarded log) (hlog : log.length ≤ 65536)
    {rsp : ConnectionStartRsp} (hanswered : Answered log (users i) rsp) :
    Holds w.server.sessions (users i) rsp.sid := by
  obtain ⟨n, hn, rfl⟩ := hanswered
  have hsessions := h.serving.sessions (Directory.freeAlong_of_length hlog)
  obtain ⟨m, a, hcurrent⟩ := Directory.current_of_mem (List.mem_of_getElem? hn)
  obtain ⟨p, hp⟩ := hsessions.found _ m a hcurrent
  refine ⟨p, _, hp, rfl, ?_⟩
  cases hq : w.server.sessions.getSession (Directory.sidAt (n + 1)) with
  | none => exact .inl rfl
  | some q =>
      -- the session under the id is that of the very request
      obtain ⟨t, ht, hsid, -⟩ := hsessions.consistent.sessions _ q hq
      obtain ⟨hfound, k, hk, hsidk⟩ := hsessions.objects q t ht
      obtain ⟨hpos, hat⟩ := Directory.getElem?_of_current hk
      obtain ⟨hlt, -⟩ := List.getElem?_eq_some_iff.mp hat
      obtain ⟨hlt', -⟩ := List.getElem?_eq_some_iff.mp hn
      have hkn : k - 1 = n := by
        refine Directory.sidAt_inj (by omega) (by omega) ?_
        rw [Nat.sub_add_cancel hpos, ← hsidk, hsid]
      rw [hkn, hn] at hat
      have hrequest := Option.some.inj hat
      have huid : (users i).uid = t.uid := congrArg Request.uid hrequest
      have hpeer : (users i).address = t.peer := congrArg Request.sender hrequest
      have hsame : some p = some q := by
        rw [← hp.getSessionByUid, ← hfound.getSessionByUid, ← huid]
        rfl
      obtain rfl := Option.some.inj hsame
      have hst := Option.some.inj (hp.heap.symm.trans ht)
      exact .inr ⟨rfl, (congrArg Session.peer hst).trans hpeer.symm⟩

/-- Whatever the network does, nothing fails.  In the first 65536 requests, whoever makes
them, what a guarded client reads is the zeros of a failed `ReceiveFrom` or a reply with an id
of its own: its user has a session then, and if the id is still that of a session it is this
one, with the address of the client. -/
theorem decoded_own [DecidableEq ι] (users : ι → User) (guarded : ι → Prop) (sys : Setup)
    (sendto : Nat → Int) (hsock : (Socket.new .ipv4 sys sendto).Working) {events : List (Event ι)}
    (hevents : Run.Along (step users) (Possible users guarded) events
      (new (Socket.new .ipv4 sys sendto))) :
    ∃ w, Run.run (step users) events (new (Socket.new .ipv4 sys sendto)) = .ok w ∧
      (w.requests.length ≤ 65536 → ∀ i, guarded i → ∀ rsp ∈ (w.client i).readObjects,
        rsp = { cmd := 0, sid := 0 } ∨
          rsp.cmd = 102 ∧ Holds w.server.sessions (users i) rsp.sid) := by
  obtain ⟨hincoming, hsent⟩ := Socket.new_idle .ipv4 sys sendto
  obtain ⟨w, log, hrun, hsound⟩ := run_keepsSound hsock hincoming hsent hevents
  refine ⟨w, hrun, fun hlen i hi rsp hrsp => (hsound.read i hi rsp hrsp).imp_right fun h => ?_⟩
  rw [hsound.length_log] at hlen
  obtain ⟨n, -, hreply⟩ := id h
  exact ⟨by rw [hreply], hsound.holds hlen h⟩

/-- Three users. -/
def sampleUsers (i : Fin 3) : User where
  uid := 7 + i.val
  address := .ipv4 1 (10 + i.val)
  valid := rfl

/-- Where the datagrams of a user come from. -/
def sampleSource (i : Fin 3) : Sockaddr := .inet 1 (htons (10 + i.val))

/-- `ask i` is what user `i` sends. -/
def SampleAsks (ask : Fin 3 → List U8) : Prop :=
  ∀ i, CSharp.echoTest (sampleUsers i).uid = .ok (ask i) ∧
    (ask i).take 11 = startReqBytes { cmd := 101, sid := 0, uid := (sampleUsers i).uid }

/-- Every user of the example has bytes to send. -/
theorem exists_sampleAsks : ∃ ask, SampleAsks ask := by
  have hask : ∀ i, ∃ data, CSharp.echoTest (sampleUsers i).uid = .ok data ∧
      data.take 11 = startReqBytes { cmd := 101, sid := 0, uid := (sampleUsers i).uid } := by
    intro i
    obtain ⟨data, hrun, -, hdata⟩ := CSharp.echoTest_ok (sampleUsers i).uid
    exact ⟨data, hrun, hdata⟩
  exact Classical.axiomOfChoice hask

/-- The requests of the first two users arrive, one of them twice. -/
def sampleArrivals (ask : Fin 3 → List U8) : List Server.Event :=
  [.arrive (.datagram (sampleSource 1) (ask 1)),
    .arrive (.datagram (sampleSource 0) (ask 0)),
    .arrive (.datagram (sampleSource 1) (ask 1))]

/-- What the clients read: the first two the latest reply, the third one what a stranger
sends. -/
def sampleReply (i : Fin 3) : ConnectionStartRsp where
  cmd := 102
  sid := if i = 1 then 3 else 2

/-- A client hears its reply. -/
def sampleHears (i : Fin 3) : Event (Fin 3) :=
  .toClient i (some (Server.startRspBytes (sampleReply i)))

/-- What the server does with the requests. -/
def sampleServes (ask : Fin 3 → List U8) : List Server.Event :=
  sampleArrivals ask ++ [.tick Server.sampleLocals fun _ => 0]

/-- All ask for a session, the server answers, and the replies arrive. -/
def sampleEvents (ask : Fin 3 → List U8) : List (Event (Fin 3)) :=
  [0, 1, 2].map .echoTest ++ ((sampleServes ask).map .ofServer ++ [0, 1, 2].map sampleHears)

/-- The world after all have asked. -/
def sampleAsked (ask : Fin 3 → List U8) : World (Fin 3) where
  server := .new (Socket.new .ipv4 ⟨3, 0, 0, 0⟩ fun _ => 3)
  client i := { isRunning := true, sent := [ask i], readObjects := [] }

/-- What the server has sent then. -/
def sampleSent : List (Sockaddr × List U8) :=
  [(sampleSource 1, Server.startRspBytes { cmd := 102, sid := 1 }),
    (sampleSource 0, Server.startRspBytes { cmd := 102, sid := 2 }),
    (sampleSource 1, Server.startRspBytes { cmd := 102, sid := 3 })]

variable {ask : Fin 3 → List U8}

/-- All three users of the example ask. -/
theorem run_sampleAsks (hask : SampleAsks ask) :
    Run.run (step sampleUsers) ([0, 1, 2].map .echoTest)
      (new (Socket.new .ipv4 ⟨3, 0, 0, 0⟩ fun _ => 3)) = .ok (sampleAsked ask) := by
  have hstep : ∀ (w : World (Fin 3)) i, w.client i = TestUDP.new →
      w.step sampleUsers (.echoTest i) =
        .ok { w with client := update w.client i ((sampleAsked ask).client i) } := by
    intro w i hnew
    refine Except.bind_eq_ok_iff.mpr ⟨_, Except.bind_eq_ok_iff.mpr ⟨_, (hask i).1, rfl⟩, ?_⟩
    rw [hnew]
    rfl
  have hall : ∀ i, update (update (update (fun _ => TestUDP.new) 0 ((sampleAsked ask).client 0)) 1
      ((sampleAsked ask).client 1)) 2 ((sampleAsked ask).client 2) i = (sampleAsked ask).client i := by
    intro i
    match i with
    | 0 => rfl
    | 1 => rfl
    | 2 => rfl
  refine Run.run_cons_eq_ok.mpr ⟨_, hstep _ 0 rfl, Run.run_cons_eq_ok.mpr ⟨_, hstep _ 1 rfl,
    Run.run_cons_eq_ok.mpr ⟨_, hstep _ 2 rfl, ?_⟩⟩⟩
  exact congrArg (fun client => Except.ok { sampleAsked ask with client }) (funext hall)

/-- The server answers every request. -/
theorem run_sampleServes (hask : SampleAsks ask) : ∃ server,
    Run.run Server.step (sampleServes ask) (sampleAsked ask).server = .ok server ∧
      server.svrSocket.sent = sampleSent := by
  have hnonempty : ∀ i, ask i ≠ [] := by
    intro i hnil
    have hask := (hask i).2
    rw [hnil] at hask
    exact absurd (congrArg List.length hask) (by simp [startReqBytes, ConnectionStartReq.length_enc])
  have hcalm : ∀ e ∈ sampleArrivals ask, ∀ r ∈ e.arrivals, ¬Server.Empty r := by
    simp [sampleArrivals, Server.Event.arrivals, Server.Empty, hnonempty]
  have hinternet : ∀ e ∈ sampleServes ask, e.FromInternet := by
    simp [sampleServes, sampleArrivals, Server.Event.FromInternet, sampleSource, Socket.FromInternet]
  obtain ⟨hincoming, hsent⟩ := Socket.new_idle .ipv4 ⟨3, 0, 0, 0⟩ fun _ => 3
  obtain ⟨server, log, hrun, hserving⟩ :=
    Server.run_serving Server.sampleSocket_working hincoming hsent hinternet
  obtain ⟨-, htaken⟩ := Server.run_tick_taken hincoming hcalm hrun
  refine ⟨server, hrun, ?_⟩
  -- each datagram is a request, and its reply goes back to where it came from
  have hstarts : ∀ i, Server.startsRequest (sampleSource i, ask i) = true := by
    intro i
    rw [Server.startsRequest, headD_of_startReq (hask i).2]
    rfl
  have hasked := hserving.asked
  rw [htaken] at hasked
  change List.Forall₂ Server.Asks ([(sampleSource 1, ask 1), (sampleSource 0, ask 0),
    (sampleSource 1, ask 1)].filter Server.startsRequest) log at hasked
  simp only [List.filter_cons, hstarts, if_true, List.filter_nil] at hasked
  have hrequest : ∀ i r, Server.Asks (sampleSource i, ask i) r → r = (sampleUsers i).request := by
    intro i r h
    have hsender := Socket.ofSockaddr_sockaddr (rfl : Socket.sockaddr (sampleUsers i).address =
      some (sampleSource i))
    exact h.eq hsender (hask i).2
  have hreply : ∀ i n d, Server.Replies n (sampleUsers i).request d →
      d = (sampleSource i, Server.startRspBytes { cmd := 102, sid := Directory.sidAt n }) :=
    fun i n d h => Prod.ext (Option.some.inj h.1).symm h.2
  have hreplied := hserving.replied
  obtain _ | ⟨hfirst, _ | ⟨hsecond, _ | ⟨hthird, _ | _⟩⟩⟩ := hasked
  rw [hrequest 1 _ hfirst, hrequest 0 _ hsecond, hrequest 1 _ hthird] at hreplied
  generalize server.svrSocket.sent = sent at hreplied
  obtain _ | ⟨hfirst, _ | ⟨hsecond, _ | ⟨hthird, _ | _⟩⟩⟩ := hreplied
  rw [hreply 1 _ _ hfirst, hreply 0 _ _ hsecond, hreply 1 _ _ hthird]
  rfl

/-- All clients read what comes to them. -/
theorem run_sampleReplies {w : World (Fin 3)} (hclient : w.client = (sampleAsked ask).client) :
    ∃ w', Run.run (step sampleUsers) ([0, 1, 2].map sampleHears) w = .ok w' ∧
      ∀ i, (w'.client i).readObjects = [sampleReply i] := by
  have hstep : ∀ (w : World (Fin 3)) i, w.client i = (sampleAsked ask).client i →
      w.step sampleUsers (sampleHears i) = .ok { w with client := (update w.client i
          ⟨false, [ask i], [sampleReply i]⟩) } := by
    intro w i hw
    refine Except.bind_eq_ok_iff.mpr ⟨_, ?_, rfl⟩
    rw [hw]
    exact Except.bind_eq_ok_iff.mpr ⟨_, CSharp.hanldeMsg_startRsp (sampleReply i), rfl⟩
  have h0 : w.client 0 = (sampleAsked ask).client 0 := by rw [hclient]
  have h1 : w.client 1 = (sampleAsked ask).client 1 := by rw [hclient]
  have h2 : w.client 2 = (sampleAsked ask).client 2 := by rw [hclient]
  refine ⟨_, Run.run_cons_eq_ok.mpr ⟨_, hstep _ 0 h0, Run.run_cons_eq_ok.mpr ⟨_, hstep _ 1 h1,
    Run.run_cons_eq_ok.mpr ⟨_, hstep _ 2 h2, rfl⟩⟩⟩, fun i => ?_⟩
  match i with
  | 0 => rfl
  | 1 => rfl
  | 2 => rfl

/-- The run, and what the clients read in it. -/
theorem run_sampleEvents (hask : SampleAsks ask) : ∃ w, Run.run (step sampleUsers) (sampleEvents ask)
    (new (Socket.new .ipv4 ⟨3, 0, 0, 0⟩ fun _ => 3)) = .ok w ∧
      ∀ i, (w.client i).readObjects = [sampleReply i] := by
  obtain ⟨server, hserver, -⟩ := run_sampleServes hask
  obtain ⟨w, hreplies, hread⟩ :=
    @run_sampleReplies ask { sampleAsked ask with server } rfl
  refine ⟨w, Run.run_append_eq_ok.mpr ⟨_, run_sampleAsks hask, ?_⟩, hread⟩
  exact Run.run_append_eq_ok.mpr ⟨_, run_ofServer hserver, hreplies⟩

/-- What a user sends can come from its address. -/
theorem sampleArrival_possible {w : World (Fin 3)} (hclient : w.client = (sampleAsked ask).client)
    (j : Fin 3) :
    Possible sampleUsers (· ≠ 2) w (.toServer (.datagram (sampleSource j) (ask j))) := by
  refine ⟨trivial, fun i _ hi => ?_⟩
  have hsource : ∀ i j, sampleSource i = sampleSource j → i = j := by decide
  obtain rfl := hsource i j (Option.some.inj hi)
  rw [hclient]
  exact List.mem_cons_self

/-- The replies that the guarded clients hear were sent to them. -/
theorem sampleHears_possible {w : World (Fin 3)} (hsent : w.server.svrSocket.sent = sampleSent)
    (i : Fin 3) : Possible sampleUsers (· ≠ 2) w (sampleHears i) := by
  intro hi
  refine ⟨sampleSource i, rfl, ?_⟩
  rw [hsent]
  match i with
  | 0 => exact List.mem_cons_of_mem _ List.mem_cons_self
  | 1 => exact List.mem_cons_of_mem _ (List.mem_cons_of_mem _ List.mem_cons_self)
  | 2 => contradiction

/-- The first two clients are guarded in the run. -/
theorem sampleEvents_possible (hask : SampleAsks ask) :
    Run.Along (step sampleUsers) (Possible sampleUsers (· ≠ 2)) (sampleEvents ask)
      (new (Socket.new .ipv4 ⟨3, 0, 0, 0⟩ fun _ => 3)) := by
  have hserve : ∀ (w : World (Fin 3)) e, w.client = (sampleAsked ask).client →
      e ∈ (sampleServes ask).map Event.ofServer → Possible sampleUsers (· ≠ 2) w e := by
    intro w e hclient he
    simp only [sampleServes, sampleArrivals, List.cons_append, List.nil_append, List.map_cons,
      List.map_nil, List.mem_cons, List.not_mem_nil, or_false] at he
    rcases he with rfl | rfl | rfl | rfl
    · exact sampleArrival_possible hclient 1
    · exact sampleArrival_possible hclient 0
    · exact sampleArrival_possible hclient 1
    · trivial
  have hhear : ∀ (w : World (Fin 3)) e, w.server.svrSocket.sent = sampleSent →
      e ∈ [0, 1, 2].map sampleHears → Possible sampleUsers (· ≠ 2) w e := by
    intro w e hsent he
    obtain ⟨i, -, rfl⟩ := List.mem_map.mp he
    exact sampleHears_possible hsent i
  refine Run.Along.append ⟨trivial, fun _ _ => ⟨trivial, fun _ _ => ⟨trivial, fun _ _ => trivial⟩⟩⟩
    fun w hw => ?_
  obtain rfl := Except.ok.inj ((run_sampleAsks hask).symm.trans hw)
  obtain ⟨server, hserver, hsent⟩ := run_sampleServes hask
  refine Run.Along.append (Run.along_of_inv hserve (fun w e w' hclient he _ hstep => ?_)
    (fun _ he => he) rfl) fun w hw => ?_
  · obtain ⟨e, -, rfl⟩ := List.mem_map.mp he
    exact (client_of_ofServer hstep).trans hclient
  · obtain rfl := Except.ok.inj ((run_ofServer hserver).symm.trans hw)
    refine Run.along_of_inv hhear (fun w e w' hsent he _ hstep => ?_) (fun _ he => he) hsent
    obtain ⟨i, -, rfl⟩ := List.mem_map.mp he
    rw [server_of_toClient hstep]
    exact hsent

/-- Three users, each of whom decodes one reply. -/
theorem decoded_own_sample : ∃ ask w,
    Run.run (step sampleUsers) (sampleEvents ask)
      (new (Socket.new .ipv4 ⟨3, 0, 0, 0⟩ fun _ => 3)) = .ok w ∧
      (∀ i, (w.client i).readObjects = [sampleReply i]) ∧
      (w.requests.length ≤ 65536 → ∀ i, i ≠ 2 → ∀ rsp ∈ (w.client i).readObjects,
        rsp = { cmd := 0, sid := 0 } ∨
          rsp.cmd = 102 ∧ Holds w.server.sessions (sampleUsers i) rsp.sid) := by
  obtain ⟨ask, hask⟩ := exists_sampleAsks
  obtain ⟨w, hrun, hread⟩ := run_sampleEvents hask
  obtain ⟨w', hrun', hown⟩ := decoded_own sampleUsers (· ≠ 2) ⟨3, 0, 0, 0⟩ (fun _ => 3)
    Server.sampleSocket_working (sampleEvents_possible hask)
  obtain rfl := Except.ok.inj (hrun.symm.trans hrun')
  exact ⟨ask, w, hrun, hread, hown⟩

/-- In the first 65536 requests no two guarded clients at different addresses read the same
id. -/
theorem decoded_distinct [DecidableEq ι] (users : ι → User) (guarded : ι → Prop)
    (sys : Setup) (sendto : Nat → Int) (hsock : (Socket.new .ipv4 sys sendto).Working)
    {events : List (Event ι)}
    (hevents : Run.Along (step users) (Possible users guarded) events
      (new (Socket.new .ipv4 sys sendto))) :
    ∃ w, Run.run (step users) events (new (Socket.new .ipv4 sys sendto)) = .ok w ∧
      (w.requests.length ≤ 65536 → ∀ i j, guarded i → guarded j →
        (users i).address ≠ (users j).address →
        ∀ rsp ∈ (w.client i).readObjects, ∀ rsp' ∈ (w.client j).readObjects,
          rsp.cmd = 102 → rsp'.cmd = 102 → rsp.sid ≠ rsp'.sid) := by
  obtain ⟨hincoming, hsent⟩ := Socket.new_idle .ipv4 sys sendto
  obtain ⟨w, log, hrun, hsound⟩ := run_keepsSound hsock hincoming hsent hevents
  refine ⟨w, hrun, fun hlen i j hi hj hij rsp hrsp rsp' hrsp' hcmd hcmd' hsid => hij ?_⟩
  rw [hsound.length_log] at hlen
  have hanswered : ∀ i, guarded i → ∀ rsp ∈ (w.client i).readObjects, rsp.cmd = 102 →
      Answered log (users i) rsp := by
    intro i hi rsp hrsp hcmd
    refine (hsound.read i hi rsp hrsp).resolve_left ?_
    rintro rfl
    exact absurd hcmd (by decide)
  obtain ⟨n, hn, rfl⟩ := hanswered i hi rsp hrsp hcmd
  obtain ⟨n', hn', rfl⟩ := hanswered j hj rsp' hrsp' hcmd'
  obtain ⟨hlt, -⟩ := List.getElem?_eq_some_iff.mp hn
  obtain ⟨hlt', -⟩ := List.getElem?_eq_some_iff.mp hn'
  obtain rfl := Directory.sidAt_inj (by omega) (by omega) hsid
  exact congrArg Request.sender (Option.some.inj (hn.symm.trans hn'))

/-- The guarded users of the example have different ids. -/
theorem decoded_distinct_sample : ∃ ask w,
    Run.run (step sampleUsers) (sampleEvents ask)
      (new (Socket.new .ipv4 ⟨3, 0, 0, 0⟩ fun _ => 3)) = .ok w ∧
      (∀ i, (w.client i).readObjects = [sampleReply i]) ∧
      (w.requests.length ≤ 65536 → ∀ i j, i ≠ 2 → j ≠ 2 →
        (sampleUsers i).address ≠ (sampleUsers j).address →
        ∀ rsp ∈ (w.client i).readObjects, ∀ rsp' ∈ (w.client j).readObjects,
          rsp.cmd = 102 → rsp'.cmd = 102 → rsp.sid ≠ rsp'.sid) := by
  obtain ⟨ask, hask⟩ := exists_sampleAsks
  obtain ⟨w, hrun, hread⟩ := run_sampleEvents hask
  obtain ⟨w', hrun', hids⟩ := decoded_distinct sampleUsers (· ≠ 2) ⟨3, 0, 0, 0⟩ (fun _ => 3)
    Server.sampleSocket_working (sampleEvents_possible hask)
  obtain rfl := Except.ok.inj (hrun.symm.trans hrun')
  exact ⟨ask, w, hrun, hread, hids⟩

end World

end RudpNetwork
