import Mathlib.Data.List.Forall2
import RudpNetwork.Directory
import RudpNetwork.Handshake

/-!
# RudpNetwork.Serving

Runs of the server: datagrams arrive, and the main loop calls `Tick` again and again.

`Serving` is the invariant.  The server has answered the requests among the datagrams
it took, one after the other and each once, and as long as every request finds its id
free its sessions are those of the directory.  Other datagrams, whatever they hold,
leave no trace.

## Main results

* `Serving.step` — every event keeps the invariant of the server.
* `requests_answered` — in every run each request that was taken is answered once.
* `all_answered` — behind a last `Tick` nothing is left to answer.
* `sessions_refine_directory` — the sessions are those of the directory of the requests.
-/

namespace RudpNetwork

open MachineInt

namespace Server

/-! ## requests and replies -/

/-- The datagrams that were taken from the socket. -/
def taken (sv : Server) : List (Sockaddr × List U8) :=
  sv.svrSocket.incoming.delivered.filterMap (·.content)

/-- What `ReceivePackets` takes for a request. -/
def startsRequest (d : Sockaddr × List U8) : Bool := d.2.headD 0 == 101

/-- The request in a datagram: its sender, and its user where the datagram is long
enough to name one. -/
structure Asks (d : Sockaddr × List U8) (r : Request) : Prop where
  sender : Address.ofSockaddr d.1 = .ok r.sender
  uid : ∀ req, d.2.take 11 = startReqBytes req → r.uid = req.uid

/-- A datagram that is long enough asks for one thing only. -/
theorem Asks.eq {d : Sockaddr × List U8} {r : Request} (h : Asks d r) {sender : Address}
    {req : ConnectionStartReq} (hsender : Address.ofSockaddr d.1 = .ok sender)
    (hreq : d.2.take 11 = startReqBytes req) : r = { uid := req.uid, sender } := by
  obtain ⟨uid, sender'⟩ := r
  obtain rfl := h.uid req hreq
  obtain rfl := Except.ok.inj (h.sender.symm.trans hsender)
  rfl

/-- The reply to request number `n`. -/
def Replies (n : Nat) (r : Request) (d : Sockaddr × List U8) : Prop :=
  Socket.sockaddr r.sender = some d.1 ∧
    d.2 = startRspBytes { cmd := 102, sid := Directory.sidAt n }

/-- A server that has served the requests of `log`. -/
structure Serving (sv : Server) (log : List Request) : Prop where
  working : sv.svrSocket.Working
  live : sv.sessions.Live
  sidGen : (sv.sessions.sidGen - log.length) % 65536 = 0
  asked : List.Forall₂ Asks (sv.taken.filter startsRequest) log
  replied : List.Forall₂ (fun r => Replies r.2 r.1) (log.zipIdx 1) sv.svrSocket.sent
  pending : ∀ source bytes, .datagram source bytes ∈ sv.svrSocket.incoming.items →
    Socket.FromInternet source
  sessions : Directory.FreeAlong log → Represents sv.sessions (.ofLog log)

variable {sv : Server} {log : List Request}

/-- The next session id counts the requests, modulo 65536. -/
theorem Serving.nextSid (h : sv.Serving log) :
    sv.sessions.nextSid = Directory.sidAt (log.length + 1) := by
  have hgen := h.sidGen
  rw [SessionManager.nextSid_eq, Directory.sidAt]
  apply BitVec.eq_of_toNat_eq
  rw [BitVec.toNat_ofInt, BitVec.toNat_ofNat]
  omega

/-- The sessions after `ProcessStart`. -/
theorem processStart_sessions {locals : Locals} {sv' : Server} {sender : Address} {msg : Memory}
    {n : Int} {o : Option Unit} {r : ReadStream Memory} {req : ConnectionStartReq}
    (hread : ConnectionStartReq.serialize.read (ReadStream.init msg n, locals.startReq) =
      .ok (o, r, req)) (h : sv.processStart locals sender msg n = .ok sv') :
    ∃ m p, sv.sessions.produceSession req.uid = .ok (m, p) ∧
      m.setPeer p sender = .ok sv'.sessions := by
  obtain ⟨⟨o', r', req'⟩, hread', h⟩ := Except.bind_eq_ok_iff.mp h
  obtain ⟨⟨m, p⟩, hproduce, h⟩ := Except.bind_eq_ok_iff.mp h
  obtain ⟨sessions, hpeer, h⟩ := Except.bind_eq_ok_iff.mp h
  obtain ⟨session, -, h⟩ := Except.bind_eq_ok_iff.mp h
  obtain ⟨writeStream, -, h⟩ := Except.bind_eq_ok_iff.mp h
  obtain ⟨⟨result, svrSocket⟩, -, h⟩ := Except.bind_eq_ok_iff.mp h
  obtain rfl := Except.pure_eq_ok_iff.mp h
  have heq := Except.ok.inj (hread.symm.trans hread')
  simp only [Prod.mk.injEq] at heq
  obtain ⟨-, -, rfl⟩ := heq
  exact ⟨m, p, hproduce, hpeer⟩

/-- What was taken from the socket, after another datagram or failure. -/
theorem taken_pop {r : Received} {incoming : Fifo Received}
    (hpop : sv.svrSocket.incoming.pop = some (r, incoming)) :
    incoming.delivered.filterMap (·.content) = sv.taken ++ r.content.toList := by
  obtain ⟨-, -, hdelivered⟩ := Fifo.pop_eq_some hpop
  rw [hdelivered, taken, List.filterMap_append]
  cases r <;> rfl

/-- Something is taken from the socket that is no request. -/
theorem Serving.skip (h : sv.Serving log) {r : Received} {incoming : Fifo Received}
    (hpop : sv.svrSocket.incoming.pop = some (r, incoming))
    (hother : ∀ source bytes, r = .datagram source bytes → bytes.headD 0 ≠ 101) :
    Serving { sv with svrSocket := { sv.svrSocket with incoming } } log := by
  obtain ⟨hitems, -, -⟩ := Fifo.pop_eq_some hpop
  have htaken := taken_pop hpop
  refine { h with working := ⟨h.working.noError, h.working.handle⟩, asked := ?_, pending := ?_ }
  · change List.Forall₂ Asks ((incoming.delivered.filterMap (·.content)).filter startsRequest) log
    rw [htaken, List.filter_append]
    have hnone : r.content.toList.filter startsRequest = [] := by
      cases r with
      | failed => rfl
      | datagram source bytes =>
          exact List.filter_cons_of_neg (by simpa [startsRequest] using hother source bytes rfl)
    rw [hnone, List.append_nil]
    exact h.asked
  · intro source bytes hmem
    exact h.pending source bytes (hitems ▸ List.mem_cons_of_mem _ hmem)

/-- The user that is named in a datagram that starts with a request is the one that is
read. -/
theorem uid_of_startReq {bytes : List U8} {data : Memory} (hdata : data.length = kMaxPkgLength)
    (htake : data.take (min kMaxPkgLength bytes.length) = bytes.take kMaxPkgLength)
    {o : ConnectionStartReq} {u : Option Unit} {r : ReadStream Memory} {req : ConnectionStartReq}
    (hread : ConnectionStartReq.serialize.read
      (ReadStream.init data (min kMaxPkgLength bytes.length : Nat), o) = .ok (u, r, req))
    {named : ConnectionStartReq} (hnamed : bytes.take 11 = startReqBytes named) :
    req.uid = named.uid := by
  have h11 : 11 ≤ bytes.length := by
    have hlen := congrArg List.length hnamed
    rw [List.length_take, startReqBytes, Bits.length_pack, ConnectionStartReq.length_enc] at hlen
    omega
  have hmin : 11 ≤ min kMaxPkgLength bytes.length := Nat.le_min.mpr ⟨by decide, h11⟩
  have hstart : data.take 11 = startReqBytes named := by
    have hcut := congrArg (List.take 11) htake
    rw [List.take_take, List.take_take, Nat.min_eq_left hmin,
      show min 11 kMaxPkgLength = 11 from rfl] at hcut
    exact hcut.trans hnamed
  obtain ⟨r', hread'⟩ := reads_startReq hdata (Nat.min_le_left _ _) hmin hstart o
  have heq := Except.ok.inj (hread.symm.trans hread')
  simp only [Prod.mk.injEq] at heq
  rw [heq.2.2]

/-- A request is taken from the socket and served. -/
theorem Serving.start (h : sv.Serving log) (locals : Locals) {msg : Memory}
    (hmsg : msg.length = kMaxPkgLength) {source : Sockaddr} {bytes : List U8}
    {incoming : Fifo Received}
    (hpop : sv.svrSocket.incoming.pop = some (.datagram source bytes, incoming))
    (hcmd : bytes.headD 0 = 101) :
    ∃ sv' msg' r, receiveNext locals (sv, msg) = .ok (true, sv', msg') ∧
      sv'.Serving (log ++ [r]) ∧ msg'.length = kMaxPkgLength := by
  obtain ⟨hitems, -, -⟩ := Fifo.pop_eq_some hpop
  have hbytes : bytes ≠ [] := by
    rintro rfl
    exact absurd hcmd (by decide)
  obtain ⟨address, haddress⟩ :=
    Socket.ofSockaddr_ok (h.pending source bytes (hitems ▸ List.mem_cons_self))
  obtain ⟨data, htake, hlen, hhead, hrun⟩ :=
    receiveNext_popped locals h.working hmsg hpop hbytes haddress
  obtain ⟨o, r, req, hread, -⟩ := read_startReq hlen (Nat.min_le_left _ bytes.length) locals.startReq
  have hdest := Socket.sockaddr_ofSockaddr haddress
  obtain ⟨sv', p, hstart, hstarted⟩ := @processStart_ok locals
    { sv with svrSocket := { sv.svrSocket with incoming } } ⟨h.working.noError, h.working.handle⟩
    h.live address (Address.isValid_ofSockaddr haddress) source hdest data _ o r req hread
  have hsocket := hstarted.socket
  refine ⟨sv', data, { uid := req.uid, sender := address },
    hrun sv' ((dispatch_startReq (hhead.trans hcmd)).trans hstart), ⟨?_, hstarted.live, ?_, ?_, ?_, ?_,
    ?_⟩, hlen⟩
  · rw [hsocket]
    exact ⟨h.working.noError, h.working.handle⟩
  · have hgen := h.sidGen
    rw [hstarted.sidGen, List.length_append, List.length_singleton]
    change (int32 (sv.sessions.sidGen + 1) - _) % 65536 = 0
    unfold int32
    push_cast
    omega
  · rw [taken, hsocket]
    change List.Forall₂ Asks ((incoming.delivered.filterMap (·.content)).filter startsRequest) _
    rw [taken_pop hpop, List.filter_append]
    have hone : (Received.datagram source bytes).content.toList.filter startsRequest =
        [(source, bytes)] := List.filter_cons_of_pos (by simpa [startsRequest] using hcmd)
    rw [hone]
    exact List.rel_append h.asked (.cons ⟨haddress, fun named hnamed =>
      uid_of_startReq hlen htake hread hnamed⟩ .nil)
  · rw [hsocket, List.zipIdx_append]
    refine List.rel_append h.replied (.cons ⟨hdest, ?_⟩ .nil)
    change startRspBytes { cmd := 102, sid := sv.sessions.nextSid } = _
    rw [h.nextSid, Nat.add_comm]
  · intro source' bytes' hmem
    rw [hsocket] at hmem
    exact h.pending source' bytes' (hitems ▸ List.mem_cons_of_mem _ hmem)
  · intro hfree
    obtain ⟨hbefore, hnext⟩ := hfree.init
    obtain ⟨m, p', m', hproduce, hpeer, hrepresents⟩ := (h.sessions hbefore).serve hnext
    obtain ⟨m₁, p₁, hproduce₁, hpeer₁⟩ := processStart_sessions hread hstart
    obtain ⟨rfl, rfl⟩ := Prod.mk.inj (Except.ok.inj (hproduce.symm.trans hproduce₁))
    rw [Directory.ofLog_concat, ← Except.ok.inj (hpeer.symm.trans hpeer₁)]
    exact hrepresents

/-- Nothing was received, which ends the loop. -/
theorem receiveNext_stop (locals : Locals) {msg : Memory} {svrSocket : Socket}
    (hreceive : sv.svrSocket.receivePacket .clear msg kMaxPkgLength =
      .ok (0, .clear, msg, svrSocket)) :
    receiveNext locals (sv, msg) = .ok (false, { sv with svrSocket }, msg) := by
  rw [receiveNext, hreceive]
  rfl

/-- A round of `ReceivePackets` completes, whatever was received. -/
theorem Serving.receiveNext (h : sv.Serving log) (locals : Locals) {msg : Memory}
    (hmsg : msg.length = kMaxPkgLength) :
    ∃ again sv' msg' log', Server.receiveNext locals (sv, msg) = .ok (again, sv', msg') ∧
      (log <+: log' ∧ sv'.Serving log') ∧ msg'.length = kMaxPkgLength := by
  have hsame := List.prefix_refl log
  cases hpop : sv.svrSocket.incoming.pop with
  | none =>
      have hitems := Fifo.pop_eq_none.mp hpop
      exact ⟨false, sv, msg, log, receiveNext_idle locals h.working hitems msg, ⟨hsame, h⟩, hmsg⟩
  | some taken =>
      obtain ⟨received, incoming⟩ := taken
      obtain ⟨hitems, -, -⟩ := Fifo.pop_eq_some hpop
      cases received with
      | failed =>
          have hreceive : sv.svrSocket.receivePacket .clear msg kMaxPkgLength =
              .ok (0, .clear, msg, { sv.svrSocket with incoming }) := by
            simp only [Socket.receivePacket, Except.bind_eq_ok_iff, require_eq_ok, hpop]
            exact ⟨(), h.working.handle, (), by decide, rfl⟩
          have hskipped := h.skip hpop fun _ _ heq => absurd heq Received.noConfusion
          exact ⟨false, _, msg, log, receiveNext_stop locals hreceive, ⟨hsame, hskipped⟩, hmsg⟩
      | datagram source bytes =>
          by_cases hcmd : bytes.headD 0 = 101
          · obtain ⟨sv', msg', r, hrun, hserving, hmsg'⟩ := h.start locals hmsg hpop hcmd
            exact ⟨true, sv', msg', _, hrun, ⟨List.prefix_append _ _, hserving⟩, hmsg'⟩
          · have hother : ∀ source' bytes', Received.datagram source bytes =
                .datagram source' bytes' → bytes'.headD 0 ≠ 101 := by
              rintro _ _ ⟨⟩
              exact hcmd
            by_cases hbytes : bytes = []
            · subst hbytes
              have hreceive : sv.svrSocket.receivePacket .clear msg kMaxPkgLength =
                  .ok (0, .clear, msg, { sv.svrSocket with incoming }) := by
                simp only [Socket.receivePacket, Except.bind_eq_ok_iff, require_eq_ok, hpop]
                exact ⟨(), h.working.handle, (), by decide, msg, rfl, rfl⟩
              exact ⟨false, _, msg, log, receiveNext_stop locals hreceive,
                ⟨hsame, h.skip hpop hother⟩, hmsg⟩
            · obtain ⟨address, haddress⟩ :=
                Socket.ofSockaddr_ok (h.pending source bytes (hitems ▸ List.mem_cons_self))
              obtain ⟨data, -, hlen, hhead, hrun⟩ :=
                receiveNext_popped locals h.working hmsg hpop hbytes haddress
              exact ⟨true, _, data, log, hrun _ (dispatch_other (hhead.trans_ne hcmd)),
                ⟨hsame, h.skip hpop hother⟩, hlen⟩

/-- `Tick` completes. -/
theorem Serving.tick (h : sv.Serving log) (locals : Locals) (memory : Nat → U8) :
    ∃ sv' log', sv.tick locals memory = .ok sv' ∧ log <+: log' ∧ sv'.Serving log' := by
  have hround : ∀ st : Server × Memory,
      (∃ log', log <+: log' ∧ st.1.Serving log') ∧ st.2.length = kMaxPkgLength →
      ∃ again st', Server.receiveNext locals st = .ok (again, st') ∧
        (∃ log', log <+: log' ∧ st'.1.Serving log') ∧ st'.2.length = kMaxPkgLength := by
    rintro ⟨sv, msg⟩ ⟨⟨log', hlog, hsv⟩, hmsg⟩
    obtain ⟨again, sv', msg', log'', hrun, ⟨hlog', hsv'⟩, hmsg'⟩ := hsv.receiveNext locals hmsg
    exact ⟨again, (sv', msg'), hrun, ⟨log'', hlog.trans hlog', hsv'⟩, hmsg'⟩
  obtain ⟨msg, hmsg⟩ : ∃ msg, uninitArray memory kMaxPkgLength = msg := ⟨_, rfl⟩
  have hlen : msg.length = kMaxPkgLength := hmsg ▸ length_uninitArray memory kMaxPkgLength
  obtain ⟨⟨sv', msg'⟩, hloop, ⟨log', hlog, hserving⟩, -⟩ := Loop.loop_keeps hround
    (sv.svrSocket.incoming.size + 1) (s := (sv, msg)) ⟨⟨log, List.prefix_refl log, h⟩, hlen⟩
  refine ⟨sv', log', ?_, hlog, hserving⟩
  rw [Server.tick, receivePackets, hmsg, receiveAll, hloop]
  rfl

/-! ## the end of a `Tick` -/

/-- Answering a request takes nothing from the socket. -/
theorem processStart_incoming {locals : Locals} {sv' : Server} {sender : Address} {msg : Memory}
    {n : Int} (h : sv.processStart locals sender msg n = .ok sv') :
    sv'.svrSocket.incoming = sv.svrSocket.incoming := by
  obtain ⟨⟨o, r, req⟩, -, h⟩ := Except.bind_eq_ok_iff.mp h
  obtain ⟨⟨m, p⟩, -, h⟩ := Except.bind_eq_ok_iff.mp h
  obtain ⟨sessions, -, h⟩ := Except.bind_eq_ok_iff.mp h
  obtain ⟨session, -, h⟩ := Except.bind_eq_ok_iff.mp h
  obtain ⟨writeStream, -, h⟩ := Except.bind_eq_ok_iff.mp h
  obtain ⟨⟨result, svrSocket⟩, hsend, h⟩ := Except.bind_eq_ok_iff.mp h
  obtain rfl := Except.pure_eq_ok_iff.mp h
  obtain ⟨dest, -, rfl⟩ := Socket.sendPacket_inv hsend
  rfl

/-- Dispatching a datagram takes nothing from the socket. -/
theorem dispatch_incoming {locals : Locals} {sv' : Server} {sender : Address} {msg : Memory}
    {n : Int} (h : sv.dispatch locals sender msg n = .ok sv') :
    sv'.svrSocket.incoming = sv.svrSocket.incoming := by
  by_cases hcmd : msg.headD 0 = 101
  · rw [dispatch_startReq hcmd] at h
    exact processStart_incoming h
  · rw [dispatch_other hcmd] at h
    obtain rfl := Except.ok.inj h
    rfl

/-- A failure, or a datagram without any bytes. -/
def Empty (r : Received) : Prop := ∀ source bytes, r = .datagram source bytes → bytes = []

/-- A round takes what is next, and goes on unless that is nothing, a failure or an empty
datagram. -/
theorem receiveNext_incoming {locals : Locals} {sv' : Server} {msg msg' : Memory} {again : Bool}
    (h : receiveNext locals (sv, msg) = .ok (again, sv', msg')) :
    (again = false ∧ sv'.svrSocket.incoming = sv.svrSocket.incoming ∧
        sv.svrSocket.incoming.items = []) ∨
      ∃ r, sv.svrSocket.incoming.pop = some (r, sv'.svrSocket.incoming) ∧
        (again = false → Empty r) := by
  obtain ⟨⟨n, sender, data, svrSocket⟩, hreceive, h⟩ := Except.bind_eq_ok_iff.mp h
  obtain ⟨-, hreceives⟩ := Socket.receivePacket_cases hreceive
  cases hreceives with
  | idle hpop =>
      obtain ⟨rfl, rfl, -⟩ : false = again ∧ sv = sv' ∧ msg = msg' := by
        simpa using Except.pure_eq_ok_iff.mp h
      exact .inl ⟨rfl, rfl, Fifo.pop_eq_none.mp hpop⟩
  | @failed incoming hpop =>
      obtain ⟨-, rfl, -⟩ : false = again ∧
          { sv with svrSocket := { sv.svrSocket with incoming } } = sv' ∧ msg = msg' := by
        simpa using Except.pure_eq_ok_iff.mp h
      exact .inr ⟨_, hpop, fun _ _ _ heq => absurd heq Received.noConfusion⟩
  | @empty source bytes incoming hpop hempty =>
      obtain ⟨-, rfl, -⟩ : false = again ∧
          { sv with svrSocket := { sv.svrSocket with incoming } } = sv' ∧ msg = msg' := by
        simpa using Except.pure_eq_ok_iff.mp h
      refine .inr ⟨_, hpop, fun _ => ?_⟩
      rintro _ _ ⟨⟩
      exact (List.take_eq_nil_iff.mp hempty).resolve_left (by decide)
  | @datagram source bytes incoming _ _ n hpop haddress hpos =>
      simp only [Server.handle] at h
      rw [if_pos (by omega)] at h
      obtain ⟨sv₁, hdispatch, h⟩ := Except.bind_eq_ok_iff.mp h
      obtain ⟨rfl, rfl, -⟩ : true = again ∧ sv₁ = sv' ∧ _ = msg' := by
        simpa using Except.pure_eq_ok_iff.mp h
      refine .inr ⟨.datagram source bytes, ?_, fun hfalse => absurd hfalse Bool.noConfusion⟩
      rw [dispatch_incoming hdispatch]
      exact hpop

/-- Every datagram that is still to come has bytes. -/
def Calm (sv : Server) : Prop := ∀ r ∈ sv.svrSocket.incoming.items, ¬Empty r

/-- `Tick` takes all that is there, unless it meets a failure or an empty datagram. -/
theorem tick_incoming {locals : Locals} {memory : Nat → U8} {sv' : Server} (hcalm : sv.Calm)
    (h : sv.tick locals memory = .ok sv') : sv'.svrSocket.incoming.items = [] := by
  obtain ⟨⟨sv₁, msg⟩, hloop, h⟩ := Except.bind_eq_ok_iff.mp h
  obtain rfl := Except.pure_eq_ok_iff.mp h
  have hlower : ∀ st st' : Server × Memory, Server.receiveNext locals st = .ok (true, st') →
      st'.1.svrSocket.incoming.size < st.1.svrSocket.incoming.size := by
    intro st st' hround
    rcases receiveNext_incoming hround with ⟨hstop, -⟩ | ⟨r, hpop, -⟩
    · contradiction
    · rw [Fifo.size_pop hpop]
      exact Nat.lt_succ_self _
  have hkeep : ∀ (st : Server × Memory) again (st' : Server × Memory), st.1.Calm →
      Server.receiveNext locals st = .ok (again, st') → st'.1.Calm := by
    intro st again st' hst hround r' hr'
    rcases receiveNext_incoming hround with ⟨-, hsame, -⟩ | ⟨r, hpop, -⟩
    · exact hst r' (hsame ▸ hr')
    · exact hst r' ((Fifo.pop_eq_some hpop).1 ▸ List.mem_cons_of_mem _ hr')
  obtain ⟨st, hst, hlast⟩ := Loop.loop_ends_inv (I := fun st : Server × Memory => st.1.Calm) hkeep
    hlower hcalm (Nat.lt_succ_self _) hloop
  rcases receiveNext_incoming hlast with ⟨-, hsame, hnone⟩ | ⟨r, hpop, hempty⟩
  · rw [hsame]
    exact hnone
  · exact absurd (hempty rfl) (hst r ((Fifo.pop_eq_some hpop).1 ▸ List.mem_cons_self))

/-- Nothing arrives in a `Tick`. -/
theorem tick_accepted {locals : Locals} {memory : Nat → U8} {sv' : Server}
    (h : sv.tick locals memory = .ok sv') :
    sv'.svrSocket.incoming.accepted = sv.svrSocket.incoming.accepted := by
  obtain ⟨⟨sv₁, msg⟩, hloop, h⟩ := Except.bind_eq_ok_iff.mp h
  obtain rfl := Except.pure_eq_ok_iff.mp h
  refine Loop.loop_inv (I := fun st : Server × Memory =>
    st.1.svrSocket.incoming.accepted = sv.svrSocket.incoming.accepted) ?_ rfl hloop
  intro st again st' hst hround
  rcases receiveNext_incoming hround with ⟨-, hsame, -⟩ | ⟨r, hpop, -⟩
  · rw [hsame, hst]
  · rw [(Fifo.pop_eq_some hpop).2.1, hst]

/-! ## runs -/

/-- What happens to a server: something arrives, or the main loop comes round to `Tick`. -/
inductive Event
  | arrive (r : Received)
  | tick (locals : Locals) (memory : Nat → U8)

/-- One event. -/
def step (sv : Server) : Event → Except Fault Server
  | .arrive r => .ok (sv.arrive r)
  | .tick locals memory => sv.tick locals memory

/-- What arrives in an event. -/
def Event.arrivals : Event → List Received
  | .arrive r => [r]
  | .tick _ _ => []

/-- Datagrams arrive in the order of the events. -/
theorem step_accepted {sv' : Server} {e : Event} (h : sv.step e = .ok sv') :
    sv'.svrSocket.incoming.accepted = sv.svrSocket.incoming.accepted ++ e.arrivals := by
  cases e with
  | arrive r =>
      obtain rfl := Except.ok.inj h
      rfl
  | tick locals memory => rw [tick_accepted h, Event.arrivals, List.append_nil]

/-- The datagrams of a whole run. -/
theorem run_accepted {sv' : Server} {events : List Event} (h : Run.run step events sv = .ok sv') :
    sv'.svrSocket.incoming.accepted =
      sv.svrSocket.incoming.accepted ++ events.flatMap Event.arrivals := by
  induction events generalizing sv with
  | nil =>
      obtain rfl := Except.ok.inj h
      exact (List.append_nil _).symm
  | cons e events ih =>
      obtain ⟨sv₁, hstep, hrest⟩ := Run.run_cons_eq_ok.mp h
      rw [ih hrest, step_accepted hstep, List.append_assoc, List.flatMap_cons]

/-- Datagrams come from internet addresses. -/
def Event.FromInternet : Event → Prop
  | .arrive (.datagram source _) => Socket.FromInternet source
  | _ => True

/-- `Server()`, over the socket that was set up for it. -/
def new (svrSocket : Socket) : Server := { svrSocket, sessions := .empty }

/-- A new server has answered nothing. -/
theorem new_serving {svrSocket : Socket} (hsock : svrSocket.Working)
    (hincoming : svrSocket.incoming = .empty) (hsent : svrSocket.sent = []) :
    (new svrSocket).Serving [] where
  working := hsock
  live := SessionManager.empty_live
  sidGen := rfl
  asked := by
    change List.Forall₂ Asks ((svrSocket.incoming.delivered.filterMap _).filter _) []
    rw [hincoming]
    exact .nil
  replied := by
    change List.Forall₂ _ [] svrSocket.sent
    rw [hsent]
    exact .nil
  pending source bytes hmem := by
    change _ ∈ svrSocket.incoming.items at hmem
    rw [hincoming] at hmem
    exact absurd hmem List.not_mem_nil
  sessions _ := represents_empty

/-- The step lemma: every event completes and adds to the log. -/
theorem Serving.step (h : sv.Serving log) {e : Event} (he : e.FromInternet) :
    ∃ sv' log', sv.step e = .ok sv' ∧ log <+: log' ∧ sv'.Serving log' := by
  cases e with
  | tick locals memory => exact h.tick locals memory
  | arrive r =>
      refine ⟨_, log, rfl, List.prefix_refl log,
        { h with working := h.working.arrive r, pending := ?_ }⟩
      intro source bytes hmem
      rcases List.mem_append.mp hmem with hold | hnew
      · exact h.pending source bytes hold
      · obtain rfl := List.mem_singleton.mp hnew
        exact he

/-- Every run of a new server completes, and leaves it serving. -/
theorem run_serving {svrSocket : Socket} (hsock : svrSocket.Working)
    (hincoming : svrSocket.incoming = .empty) (hsent : svrSocket.sent = []) {events : List Event}
    (hevents : ∀ e ∈ events, e.FromInternet) :
    ∃ sv log, Run.run step events (new svrSocket) = .ok sv ∧ sv.Serving log := by
  have hstep : ∀ (sv : Server) (e : Event), (∃ log, sv.Serving log) → e.FromInternet →
      ∃ sv', sv.step e = .ok sv' ∧ ∃ log, sv'.Serving log := by
    rintro sv e ⟨log, h⟩ he
    obtain ⟨sv', log', hrun, -, hserving⟩ := h.step he
    exact ⟨sv', hrun, log', hserving⟩
  obtain ⟨sv, hrun, log, hserving⟩ := Run.run_keeps_along hstep
    ⟨[], new_serving hsock hincoming hsent⟩ (Run.along_of_forall hevents (new svrSocket))
  exact ⟨sv, log, hrun, hserving⟩

/-- Whatever arrives, the main loop never fails.  Each request that was taken from the socket
has got one reply, to where it came from, in the order of the requests, and the `n`-th reply
carries the id `n`, in 16 bits; nothing else was sent. -/
theorem requests_answered (sys : Setup) (sendto : Nat → Int)
    (hsock : (Socket.new .ipv4 sys sendto).Working) {events : List Event}
    (hevents : ∀ e ∈ events, e.FromInternet) :
    ∃ sv log, Run.run step events (new (Socket.new .ipv4 sys sendto)) = .ok sv ∧
      List.Forall₂ Asks (sv.taken.filter startsRequest) log ∧
      List.Forall₂ (fun r => Replies r.2 r.1) (log.zipIdx 1) sv.svrSocket.sent := by
  obtain ⟨hincoming, hsent⟩ := Socket.new_idle .ipv4 sys sendto
  obtain ⟨sv, log, hrun, hserving⟩ := run_serving hsock hincoming hsent hevents
  exact ⟨sv, log, hrun, hserving.asked, hserving.replied⟩

/-- Requests of two users, one of them from two places, and a heartbeat. -/
def sampleArrivals : List Event :=
  [.arrive (.datagram (.inet 1 2) [101, 0, 0, 7, 0, 0, 0, 0, 0, 0, 0]),
    .arrive (.datagram (.inet 3 4) [101, 0, 0, 8, 0, 0, 0, 0, 0, 0, 0]),
    .arrive (.datagram (.inet 3 4) [105]),
    .arrive (.datagram (.inet 5 6) [101, 0, 0, 7, 0, 0, 0, 0, 0, 0, 0])]

/-- All are taken from the socket. -/
def sampleEvents : List Event := sampleArrivals ++ [.tick sampleLocals fun _ => 0]

/-- The datagrams of the example come from internet addresses. -/
theorem sampleEvents_fromInternet : ∀ e ∈ sampleEvents, e.FromInternet := by
  simp [sampleEvents, sampleArrivals, Event.FromInternet, Socket.FromInternet]

/-- The socket of the example works. -/
theorem sampleSocket_working : (Socket.new .ipv4 ⟨3, 0, 0, 0⟩ fun _ => 3).Working :=
  Socket.new_working (by decide) rfl (by decide) (by decide)

/-- The requests of the example, each answered once. -/
theorem requests_answered_sample :
    ∃ sv log, Run.run step sampleEvents (new (Socket.new .ipv4 ⟨3, 0, 0, 0⟩ fun _ => 3)) = .ok sv ∧
      List.Forall₂ Asks (sv.taken.filter startsRequest) log ∧
      List.Forall₂ (fun r => Replies r.2 r.1) (log.zipIdx 1) sv.svrSocket.sent :=
  requests_answered ⟨3, 0, 0, 0⟩ (fun _ => 3) sampleSocket_working sampleEvents_fromInternet

/-- None of the datagrams is empty. -/
theorem sampleArrivals_calm : ∀ e ∈ sampleArrivals, ∀ r ∈ e.arrivals, ¬Empty r := by
  simp [sampleArrivals, Event.arrivals, Empty]

/-- Where no empty datagram arrives, none waits. -/
theorem step_calm {sv' : Server} {e : Event} (hcalm : sv.Calm)
    (he : ∀ r ∈ e.arrivals, ¬Empty r) (h : sv.step e = .ok sv') : sv'.Calm := by
  cases e with
  | arrive r =>
      obtain rfl := Except.ok.inj h
      intro r' hr'
      rcases List.mem_append.mp hr' with hold | hnew
      · exact hcalm r' hold
      · exact he r' hnew
  | tick locals memory =>
      intro r hr
      rw [tick_incoming hcalm h] at hr
      exact absurd hr List.not_mem_nil

/-- Where only datagrams with bytes arrive, a `Tick` takes all that have ever arrived. -/
theorem run_tick_taken {svrSocket : Socket} (hincoming : svrSocket.incoming = .empty)
    {events : List Event} (hcalm : ∀ e ∈ events, ∀ r ∈ e.arrivals, ¬Empty r) {locals : Locals}
    {memory : Nat → U8}
    (hrun : Run.run step (events ++ [.tick locals memory]) (new svrSocket) = .ok sv) :
    sv.svrSocket.incoming.items = [] ∧
      sv.taken = (events.flatMap Event.arrivals).filterMap (·.content) := by
  obtain ⟨sv₁, hrun₁, hlast⟩ := Run.run_append_eq_ok.mp hrun
  obtain ⟨sv₂, htick, hend⟩ := Run.run_cons_eq_ok.mp hlast
  obtain rfl := Except.ok.inj hend
  have hstart : (new svrSocket).Calm := by
    intro r hr
    change r ∈ svrSocket.incoming.items at hr
    rw [hincoming] at hr
    exact absurd hr List.not_mem_nil
  have hcalm₁ := Run.run_inv (fun sv e sv' hsv he hstep => step_calm hsv he hstep) hcalm hstart hrun₁
  have hitems := tick_incoming hcalm₁ htick
  have haccepted := run_accepted hrun
  rw [List.flatMap_append] at haccepted
  change _ = svrSocket.incoming.accepted ++ (_ ++ []) at haccepted
  rw [hincoming, Fifo.accepted_empty, List.nil_append, List.append_nil] at haccepted
  refine ⟨hitems, ?_⟩
  rw [← haccepted, taken, sv₂.svrSocket.incoming.inOrder, hitems, List.append_nil]

/-- Where every request finds its id free, which it does in the first 65536 requests, the
sessions after any run are those of the directory of the requests that were taken: every user
has the session of the latest request, under its id and under the user, and there are no other
`Session` objects. -/
theorem sessions_refine_directory (sys : Setup) (sendto : Nat → Int)
    (hsock : (Socket.new .ipv4 sys sendto).Working) {events : List Event}
    (hevents : ∀ e ∈ events, e.FromInternet) :
    ∃ sv log, Run.run step events (new (Socket.new .ipv4 sys sendto)) = .ok sv ∧
      List.Forall₂ Asks (sv.taken.filter startsRequest) log ∧
      (log.length ≤ 65536 → Directory.FreeAlong log) ∧
      (Directory.FreeAlong log → Represents sv.sessions (.ofLog log)) := by
  obtain ⟨hincoming, hsent⟩ := Socket.new_idle .ipv4 sys sendto
  obtain ⟨sv, log, hrun, hserving⟩ := run_serving hsock hincoming hsent hevents
  exact ⟨sv, log, hrun, hserving.asked, Directory.freeAlong_of_length, hserving.sessions⟩

/-- What the sample datagrams ask for. -/
def sampleLog : List Request :=
  [{ uid := 7, sender := .ipv4 1 (ntohs 2) }, { uid := 8, sender := .ipv4 3 (ntohs 4) },
    { uid := 7, sender := .ipv4 5 (ntohs 6) }]

/-- Two users, one of whom has asked again. -/
theorem sessions_refine_directory_sample :
    ∃ sv, Run.run step sampleEvents (new (Socket.new .ipv4 ⟨3, 0, 0, 0⟩ fun _ => 3)) = .ok sv ∧
      Represents sv.sessions (.ofLog sampleLog) := by
  obtain ⟨sv, log, hrun, hasked, hfree, hsessions⟩ :=
    sessions_refine_directory ⟨3, 0, 0, 0⟩ (fun _ => 3) sampleSocket_working
      sampleEvents_fromInternet
  obtain ⟨-, htaken⟩ := run_tick_taken (Socket.new_idle .ipv4 _ _).1 sampleArrivals_calm hrun
  rw [htaken] at hasked
  have hlog : log = sampleLog := by
    obtain _ | ⟨hfirst, _ | ⟨hsecond, _ | ⟨hthird, _ | _⟩⟩⟩ := hasked
    have hseven : startReqBytes { cmd := 101, sid := 0, uid := 7 } =
      [101, 0, 0, 7, 0, 0, 0, 0, 0, 0, 0] := by decide +kernel
    have height : startReqBytes { cmd := 101, sid := 0, uid := 8 } =
      [101, 0, 0, 8, 0, 0, 0, 0, 0, 0, 0] := by decide +kernel
    rw [hfirst.eq rfl hseven.symm, hsecond.eq rfl height.symm, hthird.eq rfl hseven.symm]
    rfl
  rw [hlog] at hfree hsessions
  exact ⟨sv, hrun, hsessions (hfree (by decide))⟩

end Server

end RudpNetwork
