import RudpNetwork.Lib.Run
import RudpNetwork.Address
import Mathlib.Logic.Function.Basic

/-!
# RudpNetwork.Session

`SessionManager`: two maps, from session ids to sessions and from users to
session ids, over sessions that are allocated and deleted by hand.

Session ids are 16 bits of a running `int`, so they come back after 65536
sessions.  `SessionManager.Live` is what survives that: every session in the map
has its own key as id, and its user's entry points back to it.  The converse,
that every user's entry points to a session of that user (`Separate`), needs
that no id is given out again while another user's session still has it.

## Main results

* `oneSessionPerUser` — a user never has two sessions, whatever the ids do.
* `separate_of_nextFree` — a run whose new ids are free keeps the users apart.
* `not_separate_after_wrap` — a run that gives out an id again does not.
-/

namespace RudpNetwork

open MachineInt
open Function (update)

/-- `class Session`. -/
structure Session where
  sid : U16
  uid : U64
  peer : Address
  deriving DecidableEq

/-- The address of a `Session` object. -/
abbrev SessionPtr := Nat

/-- `class SessionManager`, with the heap its sessions live in. -/
structure SessionManager where
  /-- The objects that were created and not deleted. -/
  heap : SessionPtr → Option Session
  /-- The next object `new` returns. -/
  next : SessionPtr
  sessionMap : U16 → Option SessionPtr
  uidSidMap : U64 → Option U16
  sidGen : Int

namespace SessionManager

/-! ## the source methods -/

/-- The state before the first session. -/
def empty : SessionManager where
  heap _ := none
  next := 0
  sessionMap _ := none
  uidSidMap _ := none
  sidGen := 0

/-- `*p`, which must be a live object. -/
def deref (m : SessionManager) (p : SessionPtr) : Except Fault Session :=
  match m.heap p with
  | some s => .ok s
  | none => .error .danglingPointer

/-- `p->set_peer( peer )`. -/
def setPeer (m : SessionManager) (p : SessionPtr) (peer : Address) :
    Except Fault SessionManager := do
  let s ← m.deref p
  return { m with heap := update m.heap p (some { s with peer }) }

/-- `GetSession`. -/
def getSession (m : SessionManager) (sid : U16) : Option SessionPtr := m.sessionMap sid

/-- `GetSessionByUid`. -/
def getSessionByUid (m : SessionManager) (uid : U64) : Option SessionPtr :=
  match m.uidSidMap uid with
  | none => none
  | some sid => m.getSession sid

/-- `DestroySession`. -/
def destroySession (m : SessionManager) (sid : U16) : Except Fault SessionManager :=
  match m.sessionMap sid with
  | none => return m
  | some p => do
      let s ← m.deref p
      return { m with uidSidMap := update m.uidSidMap s.uid none, heap := update m.heap p none,
                      sessionMap := update m.sessionMap sid none }

/-- The first half of `ProduceSession`: the user's session is stopped. -/
def stopCurrent (m : SessionManager) (uid : U64) : Except Fault SessionManager :=
  match m.getSessionByUid uid with
  | none => return m
  | some curSession => do
      let s ← m.deref curSession
      m.destroySession s.sid

/-- The id that the next `++sid_gen_` gives. -/
def nextSid (m : SessionManager) : U16 := BitVec.ofInt 16 (int32 (m.sidGen + 1))

/-- The second half of `ProduceSession`: a new object, entered into both maps. -/
def insertSession (m : SessionManager) (uid : U64) : SessionManager where
  heap := update m.heap m.next (some { sid := m.nextSid, uid, peer := .clear })
  next := m.next + 1
  sessionMap := update m.sessionMap m.nextSid (some m.next)
  uidSidMap := update m.uidSidMap uid (some m.nextSid)
  sidGen := int32 (m.sidGen + 1)

/-- `ProduceSession`. -/
def produceSession (m : SessionManager) (uid : U64) :
    Except Fault (SessionManager × SessionPtr) := do
  let m ← m.stopCurrent uid
  return (m.insertSession uid, m.next)

/-! ## the sessions in the map -/

/-- Every session in the map is a live object with its key as id, and its user's
entry points back to it. -/
structure Live (m : SessionManager) : Prop where
  sessions : ∀ k p, m.sessionMap k = some p →
    ∃ s, m.heap p = some s ∧ s.sid = k ∧ m.uidSidMap s.uid = some k
  fresh : ∀ p, m.next ≤ p → m.heap p = none

theorem empty_live : empty.Live := ⟨fun _ _ h => (by contradiction), fun _ _ => rfl⟩

/-- A pointer to a session that was not deleted. -/
theorem deref_eq_ok {m : SessionManager} {p : SessionPtr} {s : Session} :
    m.deref p = .ok s ↔ m.heap p = some s := by
  unfold deref
  split <;> simp_all

/-- Two keys never share an object. -/
theorem Live.key_inj {m : SessionManager} (h : m.Live) {k k' : U16} {p : SessionPtr}
    (hk : m.sessionMap k = some p) (hk' : m.sessionMap k' = some p) : k = k' := by
  obtain ⟨s, hs, hsid, -⟩ := h.sessions k p hk
  obtain ⟨s', hs', hsid', -⟩ := h.sessions k' p hk'
  obtain rfl : s = s' := Option.some.inj (hs.symm.trans hs')
  exact hsid.symm.trans hsid'

/-- What `DestroySession` does to a live id: the session, its object and its
user's entry are gone, and nothing else. -/
theorem destroySession_of_live {m : SessionManager} (h : m.Live) {k : U16} {p : SessionPtr}
    (hk : m.sessionMap k = some p) :
    ∃ s, m.heap p = some s ∧ s.sid = k ∧ m.uidSidMap s.uid = some k ∧
      m.destroySession k = .ok { m with uidSidMap := update m.uidSidMap s.uid none,
                                        heap := update m.heap p none,
                                        sessionMap := update m.sessionMap k none } := by
  obtain ⟨s, hs, hsid, huid⟩ := h.sessions k p hk
  refine ⟨s, hs, hsid, huid, ?_⟩
  have hderef : m.deref p = .ok s := deref_eq_ok.mpr hs
  simp only [destroySession, hk, hderef]
  rfl

/-- An id without a session is not destroyed. -/
theorem destroySession_of_none {m : SessionManager} {k : U16} (hk : m.sessionMap k = none) :
    m.destroySession k = .ok m := by
  simp only [destroySession, hk]
  rfl

/-- A user's session is found through the user's entry. -/
theorem entry_of_getSessionByUid {m : SessionManager} {uid : U64} {p : SessionPtr}
    (hp : m.getSessionByUid uid = some p) :
    ∃ k, m.uidSidMap uid = some k ∧ m.getSession k = some p := by
  unfold getSessionByUid at hp
  split at hp
  · contradiction
  · next k hk => exact ⟨k, hk, hp⟩

/-- What is left in the map after a removal was there before, under another id and
for another session. -/
theorem Live.update_eq_some {m : SessionManager} (h : m.Live) {k k' : U16} {p p' : SessionPtr}
    (hk : m.sessionMap k = some p) (hk' : update m.sessionMap k none k' = some p') :
    (k' ≠ k ∧ p' ≠ p) ∧ m.sessionMap k' = some p' := by
  have hne : k' ≠ k := by
    rintro rfl
    rw [Function.update_self] at hk'
    contradiction
  rw [Function.update_of_ne hne] at hk'
  refine ⟨⟨hne, ?_⟩, hk'⟩
  rintro rfl
  exact hne (h.key_inj hk' hk)

/-- `DestroySession` completes and keeps the sessions live. -/
theorem destroySession_live {m : SessionManager} (h : m.Live) (k : U16) :
    ∃ m', m.destroySession k = .ok m' ∧ m'.Live := by
  cases hk : m.sessionMap k with
  | none => exact ⟨m, destroySession_of_none hk, h⟩
  | some p =>
      obtain ⟨s, hs, hsid, huid, hrun⟩ := destroySession_of_live h hk
      refine ⟨_, hrun, ⟨fun k' p' hk' => ?_, fun p' hp' => ?_⟩⟩
      · obtain ⟨⟨hne, hp⟩, hk'⟩ := h.update_eq_some hk hk'
        obtain ⟨s', hs', hsid', huid'⟩ := h.sessions k' p' hk'
        have hu : s'.uid ≠ s.uid := by
          intro heq
          rw [heq, huid] at huid'
          exact hne (Option.some.inj huid').symm
        refine ⟨s', ?_, hsid', ?_⟩
        · exact (Function.update_of_ne hp _ _).trans hs'
        · exact (Function.update_of_ne hu _ _).trans huid'
      · change update m.heap p none p' = none
        by_cases hp : p' = p
        · rw [hp, Function.update_self]
        · rw [Function.update_of_ne hp]
          exact h.fresh p' hp'

/-- `stopCurrent` leaves the user without a session; what else is in the map was
there before. -/
theorem stopCurrent_live {m : SessionManager} (h : m.Live) (uid : U64) :
    ∃ m', m.stopCurrent uid = .ok m' ∧ m'.Live ∧ m'.getSessionByUid uid = none ∧
      (m'.next = m.next ∧ m'.sidGen = m.sidGen) ∧
      ∀ k p, m'.sessionMap k = some p → m.sessionMap k = some p ∧ m'.heap p = m.heap p := by
  cases hcur : m.getSessionByUid uid with
  | none =>
      refine ⟨m, ?_, h, hcur, ⟨rfl, rfl⟩, fun k p hk => ⟨hk, rfl⟩⟩
      simp only [stopCurrent, hcur]
      rfl
  | some cur =>
      obtain ⟨k, hk, hcurk⟩ := entry_of_getSessionByUid hcur
      obtain ⟨s, hs, hsid, huid, hrun⟩ := destroySession_of_live h hcurk
      obtain ⟨m', hrun', hlive⟩ := destroySession_live h k
      obtain rfl := Except.ok.inj (hrun'.symm.trans hrun)
      have hderef : m.deref cur = .ok s := deref_eq_ok.mpr hs
      refine ⟨_, ?_, hlive, ?_, ⟨rfl, rfl⟩, fun k' p' hk' => ?_⟩
      · simp only [stopCurrent, hcur, hderef]
        rw [← hsid] at hrun
        exact hrun.trans (by rw [hsid])
      · -- the entry of the user may remain, but the id it names is free
        by_cases hu : uid = s.uid
        · simp [getSessionByUid, hu]
        · simp [getSessionByUid, getSession, Function.update_of_ne hu, hk]
      · obtain ⟨⟨-, hp⟩, hk'⟩ := h.update_eq_some hcurk hk'
        exact ⟨hk', Function.update_of_ne hp _ _⟩

/-- A session for a new user keeps the sessions live. -/
theorem insertSession_live {m : SessionManager} (h : m.Live) {uid : U64}
    (hnone : m.getSessionByUid uid = none) : (m.insertSession uid).Live := by
  constructor
  · intro k p hk
    change update m.sessionMap m.nextSid (some m.next) k = some p at hk
    by_cases hnew : k = m.nextSid
    · rw [hnew, Function.update_self, Option.some.injEq] at hk
      subst hk
      exact ⟨{ sid := m.nextSid, uid, peer := .clear }, Function.update_self _ _ _, hnew.symm,
        (Function.update_self _ _ _).trans (by rw [hnew])⟩
    · rw [Function.update_of_ne hnew] at hk
      obtain ⟨s, hs, hsid, huid⟩ := h.sessions k p hk
      have hp : p ≠ m.next := by
        rintro rfl
        rw [h.fresh _ (le_refl _)] at hs
        contradiction
      have hu : s.uid ≠ uid := by
        rintro rfl
        simp [getSessionByUid, getSession, huid, hk] at hnone
      exact ⟨s, (Function.update_of_ne hp _ _).trans hs, hsid,
        (Function.update_of_ne hu _ _).trans huid⟩
  · intro p hp
    change m.next + 1 ≤ p at hp
    change update m.heap m.next _ p = none
    rw [Function.update_of_ne (Nat.ne_of_gt hp)]
    exact h.fresh p (Nat.le_of_succ_le hp)

/-- What `ProduceSession` returns is a session of the user, found under its id
and under the user; every other session in the map was there before. -/
theorem produceSession_live {m : SessionManager} (h : m.Live) (uid : U64) :
    ∃ m' p, m.produceSession uid = .ok (m', p) ∧ m'.Live ∧
      m'.heap p = some { sid := m.nextSid, uid, peer := .clear } ∧
      m'.getSession m.nextSid = some p ∧ m'.getSessionByUid uid = some p ∧
      m'.uidSidMap uid = some m.nextSid ∧ m'.sidGen = int32 (m.sidGen + 1) ∧
      ∀ k q, m'.sessionMap k = some q →
        (k = m.nextSid ∧ q = p) ∨ (m.sessionMap k = some q ∧ m'.heap q = m.heap q) := by
  obtain ⟨m₁, hstop, hlive, hnone, ⟨hnext, hgen⟩, hold⟩ := stopCurrent_live h uid
  have hsid : m₁.nextSid = m.nextSid := by rw [nextSid, nextSid, hgen]
  refine ⟨m₁.insertSession uid, m₁.next, ?_, insertSession_live hlive hnone, ?_, ?_, ?_, ?_, ?_, ?_⟩
  · simp only [produceSession, hstop]
    rfl
  · rw [← hsid]
    exact Function.update_self _ _ _
  · rw [← hsid]
    exact Function.update_self _ _ _
  · simp [getSessionByUid, getSession, insertSession]
  · rw [← hsid]
    exact Function.update_self _ _ _
  · rw [← hgen]
    rfl
  · intro k q hk
    change update m₁.sessionMap m₁.nextSid (some m₁.next) k = some q at hk
    by_cases hnew : k = m₁.nextSid
    · rw [hnew, Function.update_self, Option.some.injEq] at hk
      exact .inl ⟨hnew.trans hsid, hk.symm⟩
    · rw [Function.update_of_ne hnew] at hk
      obtain ⟨hmk, hheap⟩ := hold k q hk
      obtain ⟨s, hs, -⟩ := hlive.sessions k q hk
      have hq : q ≠ m₁.next := by
        rintro rfl
        rw [hlive.fresh _ (le_refl _)] at hs
        contradiction
      exact .inr ⟨hmk, (Function.update_of_ne hq _ _).trans hheap⟩

/-- A session keeps its id and its user when it gets a peer. -/
theorem setPeer_live {m : SessionManager} (h : m.Live) {p : SessionPtr} {s : Session}
    (hs : m.heap p = some s) (peer : Address) :
    ∃ m', m.setPeer p peer = .ok m' ∧ m'.Live ∧
      m' = { m with heap := update m.heap p (some { s with peer }) } := by
  refine ⟨_, ?_, ⟨fun k q hk => ?_, fun q hq => ?_⟩, rfl⟩
  · rw [setPeer, deref_eq_ok.mpr hs]
    rfl
  · obtain ⟨t, ht, hsid, huid⟩ := h.sessions k q hk
    by_cases hq : q = p
    · obtain rfl : t = s := Option.some.inj (ht.symm.trans (hq ▸ hs))
      exact ⟨{ t with peer }, hq ▸ Function.update_self _ _ _, hsid, huid⟩
    · exact ⟨t, (Function.update_of_ne hq _ _).trans ht, hsid, huid⟩
  · change update m.heap p (some { s with peer }) q = none
    have hne : q ≠ p := by
      rintro rfl
      rw [h.fresh q hq] at hs
      contradiction
    rw [Function.update_of_ne hne]
    exact h.fresh q hq

/-! ## runs -/

/-- The calls a run is made of. -/
inductive Call
  | produceSession (uid : U64)
  | destroySession (sid : U16)
  deriving DecidableEq

/-- One call. -/
def step (m : SessionManager) : Call → Except Fault SessionManager
  | .produceSession uid => do
      let (m, _) ← m.produceSession uid
      return m
  | .destroySession sid => m.destroySession sid

/-- A call of `ProduceSession` is a step. -/
theorem step_produceSession {m m' : SessionManager} {uid : U64} {p : SessionPtr}
    (h : m.produceSession uid = .ok (m', p)) : m.step (.produceSession uid) = .ok m' := by
  rw [step, h]
  rfl

/-- The step lemma: every call completes and keeps the sessions live. -/
theorem step_live {m : SessionManager} (h : m.Live) (c : Call) :
    ∃ m', m.step c = .ok m' ∧ m'.Live := by
  cases c with
  | produceSession uid =>
      obtain ⟨m', p, hrun, hlive, -⟩ := produceSession_live h uid
      exact ⟨m', step_produceSession hrun, hlive⟩
  | destroySession sid => exact destroySession_live h sid

/-- After every run, also after ids were reused: each session in the map has its
key as id and is the one its user's entry names, so no user has two; and a
session that is produced next is found at once. -/
theorem oneSessionPerUser (calls : List Call) :
    ∃ m, Run.run step calls empty = .ok m ∧
      (∀ k p, m.sessionMap k = some p →
        ∃ s, m.heap p = some s ∧ s.sid = k ∧ m.uidSidMap s.uid = some k) ∧
      (∀ k k' p p' s s', m.sessionMap k = some p → m.sessionMap k' = some p' →
        m.heap p = some s → m.heap p' = some s' → s.uid = s'.uid → k = k') ∧
      ∀ uid, ∃ m' p s, m.produceSession uid = .ok (m', p) ∧ m'.heap p = some s ∧ s.uid = uid ∧
        m'.getSession s.sid = some p ∧ m'.getSessionByUid uid = some p := by
  obtain ⟨m, hrun, hlive⟩ := Run.run_keeps (fun s c hs => step_live hs c) calls empty_live
  refine ⟨m, hrun, hlive.sessions, ?_, fun uid => ?_⟩
  · intro k k' p p' s s' hk hk' hs hs' huid
    obtain ⟨t, ht, -, htuid⟩ := hlive.sessions k p hk
    obtain ⟨t', ht', -, htuid'⟩ := hlive.sessions k' p' hk'
    obtain rfl : s = t := Option.some.inj (hs.symm.trans ht)
    obtain rfl : s' = t' := Option.some.inj (hs'.symm.trans ht')
    rw [huid, htuid'] at htuid
    exact (Option.some.inj htuid).symm
  · obtain ⟨m', p, hprod, -, hheap, hget, hget', -⟩ := produceSession_live hlive uid
    exact ⟨m', p, _, hprod, hheap, rfl, hget, hget'⟩

/-! ## users of their own

As long as no id is given out that another user's session still has, the two
maps are inverse to each other. -/

/-- `Live`, and every user's entry names a session of that user. -/
structure Consistent (m : SessionManager) : Prop extends m.Live where
  owners : ∀ uid k, m.uidSidMap uid = some k →
    ∃ p s, m.sessionMap k = some p ∧ m.heap p = some s ∧ s.uid = uid

/-- `p` is the session `s`, and both lookups find it. -/
structure Found (m : SessionManager) (p : SessionPtr) (s : Session) : Prop where
  heap : m.heap p = some s
  getSession : m.getSession s.sid = some p
  getSessionByUid : m.getSessionByUid s.uid = some p

/-- The next id is not the id of a live session of another user. -/
def NextFree (m : SessionManager) : Call → Prop
  | .produceSession uid =>
      ∀ p s, m.sessionMap m.nextSid = some p → m.heap p = some s → s.uid = uid
  | .destroySession _ => True

/-- A new manager is consistent. -/
theorem empty_consistent : empty.Consistent :=
  { empty_live with owners := fun _ _ h => (by contradiction) }

/-- A lookup by user finds a session of that user. -/
theorem Consistent.getSessionByUid_eq_some {m : SessionManager} (h : m.Consistent) {uid : U64}
    {p : SessionPtr} (hp : m.getSessionByUid uid = some p) :
    ∃ s, m.heap p = some s ∧ s.uid = uid := by
  obtain ⟨k, hk, hkp⟩ := entry_of_getSessionByUid hp
  obtain ⟨q, s, hq, hs, huid⟩ := h.owners uid k hk
  obtain rfl : q = p := Option.some.inj (hq.symm.trans hkp)
  exact ⟨s, hs, huid⟩

/-- Destroying a session leaves the sessions of other ids alone. -/
theorem destroySession_consistent {m : SessionManager} (h : m.Consistent) (k : U16) :
    ∃ m', m.destroySession k = .ok m' ∧ m'.Consistent ∧
      ∀ p s, m.Found p s → s.sid ≠ k → m'.Found p s := by
  cases hk : m.sessionMap k with
  | none => exact ⟨m, destroySession_of_none hk, h, fun p s hf _ => hf⟩
  | some q =>
      obtain ⟨t, ht, htsid, htuid, hrun⟩ := destroySession_of_live h.toLive hk
      obtain ⟨m', hrun', hlive⟩ := destroySession_live h.toLive k
      obtain rfl := Except.ok.inj (hrun'.symm.trans hrun)
      -- an entry of another user names another id, and another object
      have hother : ∀ uid j p s, uid ≠ t.uid → m.uidSidMap uid = some j →
          m.sessionMap j = some p → m.heap p = some s → s.uid = uid → j ≠ k ∧ p ≠ q := by
        intro uid j p s hu huj hj hs hsu
        have hjk : j ≠ k := by
          rintro rfl
          obtain rfl : p = q := Option.some.inj (hj.symm.trans hk)
          obtain rfl : s = t := Option.some.inj (hs.symm.trans ht)
          exact hu hsu.symm
        refine ⟨hjk, ?_⟩
        rintro rfl
        exact hjk (h.toLive.key_inj hj hk)
      refine ⟨_, hrun, { hlive with owners := fun uid j huj => ?_ }, fun p s hf hne => ?_⟩
      · change update m.uidSidMap t.uid none uid = some j at huj
        have hu : uid ≠ t.uid := by
          rintro rfl
          rw [Function.update_self] at huj
          contradiction
        rw [Function.update_of_ne hu] at huj
        obtain ⟨p, s, hj, hs, hsu⟩ := h.owners uid j huj
        obtain ⟨hjk, hpq⟩ := hother uid j p s hu huj hj hs hsu
        exact ⟨p, s, (Function.update_of_ne hjk _ _).trans hj,
          (Function.update_of_ne hpq _ _).trans hs, hsu⟩
      · have hmap : m.sessionMap s.sid = some p := hf.getSession
        obtain ⟨s', hs', -, huid⟩ := h.sessions s.sid p hmap
        obtain rfl : s = s' := Option.some.inj (hf.heap.symm.trans hs')
        have hu : s.uid ≠ t.uid := by
          intro heq
          rw [heq, htuid] at huid
          exact hne (Option.some.inj huid).symm
        obtain ⟨-, hpq⟩ := hother s.uid s.sid p s hu huid hmap hf.heap rfl
        refine ⟨(Function.update_of_ne hpq _ _).trans hf.heap,
          (Function.update_of_ne hne _ _).trans hmap, ?_⟩
        simp [SessionManager.getSessionByUid, SessionManager.getSession,
          Function.update_of_ne hu, huid, Function.update_of_ne hne, hmap]

/-- In a consistent state it is the user's own session that is stopped. -/
theorem stopCurrent_consistent {m : SessionManager} (h : m.Consistent) (uid : U64) :
    ∃ m', m.stopCurrent uid = .ok m' ∧ m'.Consistent ∧ m'.uidSidMap uid = none ∧
      (∀ u, u ≠ uid → m'.uidSidMap u = m.uidSidMap u) ∧
      ∀ p s, m.Found p s → s.uid ≠ uid → m'.Found p s := by
  cases hk : m.uidSidMap uid with
  | none =>
      refine ⟨m, ?_, h, hk, fun _ _ => rfl, fun _ _ hf _ => hf⟩
      simp only [stopCurrent, SessionManager.getSessionByUid, hk]
      rfl
  | some k =>
      obtain ⟨q, t, hq, ht, htuid⟩ := h.owners uid k hk
      obtain ⟨t', ht', htsid, -, hrun⟩ := destroySession_of_live h.toLive hq
      obtain rfl : t = t' := Option.some.inj (ht.symm.trans ht')
      obtain ⟨m', hrun', hcons, hfound⟩ := destroySession_consistent h k
      obtain rfl := Except.ok.inj (hrun'.symm.trans hrun)
      have hcur : m.getSessionByUid uid = some q := by
        simp [SessionManager.getSessionByUid, SessionManager.getSession, hk, hq]
      have hderef : m.deref q = .ok t := deref_eq_ok.mpr ht
      refine ⟨_, ?_, hcons, ?_, fun u hu => ?_, fun p s hf hne => hfound p s hf ?_⟩
      · simp only [stopCurrent, hcur, hderef]
        rw [← htsid] at hrun
        exact hrun.trans (by rw [htsid])
      · change update m.uidSidMap t.uid none uid = none
        rw [htuid, Function.update_self]
      · change update m.uidSidMap t.uid none u = _
        rw [htuid, Function.update_of_ne hu]
      · rintro rfl
        obtain ⟨s', hs', -, huid⟩ := h.sessions s.sid p hf.getSession
        obtain rfl : p = q := Option.some.inj (hf.getSession.symm.trans hq)
        obtain rfl : s = t := Option.some.inj (hf.heap.symm.trans ht)
        exact hne htuid

/-- With a free id the new session disturbs no other. -/
theorem insertSession_consistent {m : SessionManager} (h : m.Consistent) {uid : U64}
    (hnone : m.uidSidMap uid = none) (hfree : m.sessionMap m.nextSid = none) :
    (m.insertSession uid).Consistent ∧
      ∀ p s, m.Found p s → s.uid ≠ uid → (m.insertSession uid).Found p s := by
  have hlive : (m.insertSession uid).Live :=
    insertSession_live h.toLive (by simp [SessionManager.getSessionByUid, hnone])
  have hold : ∀ p s, m.heap p = some s → p ≠ m.next := by
    rintro p s hs rfl
    rw [h.fresh _ (le_refl _)] at hs
    contradiction
  have hkey : ∀ k p, m.sessionMap k = some p → k ≠ m.nextSid := by
    rintro k p hk rfl
    rw [hfree] at hk
    contradiction
  refine ⟨{ hlive with owners := fun u k huk => ?_ }, fun p s hf hne => ?_⟩
  · change update m.uidSidMap uid (some m.nextSid) u = some k at huk
    by_cases hu : u = uid
    · rw [hu, Function.update_self, Option.some.injEq] at huk
      subst huk
      exact ⟨m.next, _, Function.update_self _ _ _, Function.update_self _ _ _, hu.symm⟩
    · rw [Function.update_of_ne hu] at huk
      obtain ⟨p, s, hk, hs, hsu⟩ := h.owners u k huk
      exact ⟨p, s, (Function.update_of_ne (hkey k p hk) _ _).trans hk,
        (Function.update_of_ne (hold p s hs) _ _).trans hs, hsu⟩
  · have hmap : m.sessionMap s.sid = some p := hf.getSession
    obtain ⟨s', hs', -, huid⟩ := h.sessions s.sid p hmap
    obtain rfl : s = s' := Option.some.inj (hf.heap.symm.trans hs')
    have hget : (m.insertSession uid).sessionMap s.sid = some p :=
      (Function.update_of_ne (hkey s.sid p hmap) _ _).trans hmap
    have huid' : (m.insertSession uid).uidSidMap s.uid = some s.sid :=
      (Function.update_of_ne hne _ _).trans huid
    refine ⟨(Function.update_of_ne (hold p s hf.heap) _ _).trans hf.heap, hget, ?_⟩
    simp only [SessionManager.getSessionByUid, huid']
    exact hget

/-- A call with a free id keeps the state consistent, and keeps every session
that it does not name. -/
theorem step_consistent {m : SessionManager} (h : m.Consistent) (c : Call) (hc : m.NextFree c) :
    ∃ m', m.step c = .ok m' ∧ m'.Consistent ∧
      ∀ p s, m.Found p s → c ≠ .produceSession s.uid → c ≠ .destroySession s.sid →
        m'.Found p s := by
  cases c with
  | destroySession k =>
      obtain ⟨m', hrun, hcons, hfound⟩ := destroySession_consistent h k
      exact ⟨m', hrun, hcons, fun p s hf _ hne => hfound p s hf (by rintro rfl; exact hne rfl)⟩
  | produceSession uid =>
      obtain ⟨m₁, hstop, hcons, hnone, -, hfound⟩ := stopCurrent_consistent h uid
      obtain ⟨m₂, hstop', hlive, hnone', ⟨-, hgen⟩, hold⟩ := stopCurrent_live h.toLive uid
      obtain rfl := Except.ok.inj (hstop'.symm.trans hstop)
      have hsid : m₂.nextSid = m.nextSid := by rw [nextSid, nextSid, hgen]
      have hfree : m₂.sessionMap m₂.nextSid = none := by
        cases hk : m₂.sessionMap m₂.nextSid with
        | none => rfl
        | some p =>
            -- the holder would be a session of the user, which was stopped
            obtain ⟨s, hs, -, huid⟩ := hlive.sessions _ p hk
            obtain ⟨hmk, hheap⟩ := hold _ p hk
            rw [hsid] at hmk
            have hsu := hc p s hmk (hheap.symm.trans hs)
            rw [hsu, hnone] at huid
            contradiction
      obtain ⟨hcons', hfound'⟩ := insertSession_consistent hcons hnone hfree
      refine ⟨_, ?_, hcons', fun p s hf hne _ => ?_⟩
      · simp only [step, produceSession, hstop]
        rfl
      · have hne' : s.uid ≠ uid := by
          rintro rfl
          exact hne rfl
        exact hfound' p s (hfound p s hf hne') hne'

/-- A session is found until a call names it. -/
theorem run_found {m m' : SessionManager} {calls : List Call} {p : SessionPtr} {s : Session}
    (h : m.Consistent) (hf : m.Found p s) (hfree : Run.Along step NextFree calls m)
    (hcalls : ∀ c ∈ calls, c ≠ .produceSession s.uid ∧ c ≠ .destroySession s.sid)
    (hrun : Run.run step calls m = .ok m') : m'.Consistent ∧ m'.Found p s := by
  induction calls generalizing m with
  | nil =>
      obtain rfl : m = m' := by simpa [Run.run] using hrun
      exact ⟨h, hf⟩
  | cons c calls ih =>
      obtain ⟨m₁, hstep, hrest⟩ := Run.run_cons_eq_ok.mp hrun
      obtain ⟨m₂, hstep', hcons, hfound⟩ := step_consistent h c hfree.1
      obtain rfl : m₂ = m₁ := Except.ok.inj (hstep'.symm.trans hstep)
      obtain ⟨hc1, hc2⟩ := hcalls c (by simp)
      exact ih hcons (hfound p s hf hc1 hc2) (hfree.2 _ hstep)
        (fun c' hc' => hcalls c' (List.mem_cons_of_mem c hc')) hrest

/-- Sessions of different users do not mix in the run `calls`: a lookup by user
gives nothing or a session of that user, and a session produced for a user is
found until it is destroyed or the user gets another one. -/
def Separate (calls : List Call) : Prop :=
  ∃ m, Run.run step calls empty = .ok m ∧
    (∀ uid p, m.getSessionByUid uid = some p → ∃ s, m.heap p = some s ∧ s.uid = uid) ∧
    ∀ before uid after, calls = before ++ .produceSession uid :: after →
      ∃ m₀ m₁ p s, Run.run step before empty = .ok m₀ ∧ m₀.produceSession uid = .ok (m₁, p) ∧
        m₁.heap p = some s ∧ s.uid = uid ∧
        ((∀ c ∈ after, c ≠ .produceSession uid ∧ c ≠ .destroySession s.sid) → m.Found p s)

/-- Users are separate in every run that never gives out the id of another
user's live session. -/
theorem separate_of_nextFree {calls : List Call} (h : Run.Along step NextFree calls empty) :
    Separate calls := by
  have hstep : ∀ (m : SessionManager) (c : Call), m.Consistent → m.NextFree c →
      ∃ m', m.step c = .ok m' ∧ m'.Consistent := by
    intro m c hm hc
    obtain ⟨m', hrun, hcons, -⟩ := step_consistent hm c hc
    exact ⟨m', hrun, hcons⟩
  obtain ⟨m, hrun, hcons⟩ := Run.run_keeps_along hstep empty_consistent h
  refine ⟨m, hrun, fun uid p hp => hcons.getSessionByUid_eq_some hp, ?_⟩
  rintro before uid after rfl
  obtain ⟨m₀, hbefore, hafter⟩ := Run.run_append_eq_ok.mp hrun
  obtain ⟨hfree₀, hfree₁⟩ := Run.along_append h hbefore
  obtain ⟨m₀', hbefore', hcons₀⟩ := Run.run_keeps_along hstep empty_consistent hfree₀
  obtain rfl : m₀' = m₀ := Except.ok.inj (hbefore'.symm.trans hbefore)
  obtain ⟨m₁, p, hprod, -, hheap, hget, hget', -⟩ := produceSession_live hcons₀.toLive uid
  have hprodStep := step_produceSession hprod
  obtain ⟨m₁', hstep₁, hcons₁⟩ := hstep _ _ hcons₀ hfree₁.1
  obtain rfl : m₁' = m₁ := Except.ok.inj (hstep₁.symm.trans hprodStep)
  obtain ⟨m₁'', hstep₁', hrest⟩ := Run.run_cons_eq_ok.mp hafter
  obtain rfl : m₁'' = m₁' := Except.ok.inj (hstep₁'.symm.trans hprodStep)
  refine ⟨m₀', m₁'', p, _, hbefore, hprod, hheap, rfl, fun hcalls => ?_⟩
  exact (run_found hcons₁ ⟨hheap, hget, hget'⟩ (hfree₁.2 _ hprodStep) hcalls hrest).2

/-- Two users whose ids do not meet. -/
theorem separate_two_users :
    Separate [.produceSession 1, .produceSession 2, .destroySession 1] := by
  apply separate_of_nextFree
  refine ⟨?_, fun m₁ h₁ => ⟨?_, fun m₂ _ => ⟨trivial, fun _ _ => trivial⟩⟩⟩
  · intro p s hp
    contradiction
  · obtain rfl := Except.ok.inj h₁
    intro p s hp
    contradiction

/-! ## the run on which users mix -/

/-- User 1 keeps session 1 while user 2 has been given `n` sessions, each
replacing the last. -/
structure Exhausting (n : Nat) (m : SessionManager) : Prop where
  consistent : m.Consistent
  sidGen : m.sidGen = n + 1
  first : ∃ p s, m.Found p s ∧ s.sid = 1 ∧ s.uid = 1
  users : ∀ k p s, m.sessionMap k = some p → m.heap p = some s → s.uid = 1 ∨ s.uid = 2
  second : m.uidSidMap 2 = if n = 0 then none else some (BitVec.ofInt 16 (n + 1))

/-- The id that is given out next. -/
theorem Exhausting.nextSid_eq {n : Nat} {m : SessionManager} (h : Exhausting n m)
    (hn : n ≤ 65535) : m.nextSid = BitVec.ofInt 16 (n + 2) := by
  rw [nextSid, h.sidGen, int32_eq ⟨by omega, by omega⟩]
  congr 1

/-- Numbers that differ modulo 65536 are different ids. -/
theorem ofInt_ne {x y : Int} (h : x % 65536 ≠ y % 65536) :
    BitVec.ofInt 16 x ≠ BitVec.ofInt 16 y := by
  intro heq
  have hnat := congrArg BitVec.toNat heq
  simp only [BitVec.toNat_ofInt] at hnat
  omega

theorem exhausting_zero : ∃ m, step empty (.produceSession 1) = .ok m ∧ Exhausting 0 m := by
  obtain ⟨m, p, hprod, hlive, hheap, hget, hget', huid, hgen, hold⟩ :=
    produceSession_live empty_live 1
  have hfree : empty.NextFree (.produceSession 1) := fun p s hp _ => by contradiction
  obtain ⟨m', hstep, hcons, -⟩ := step_consistent empty_consistent _ hfree
  have hprodStep := step_produceSession hprod
  obtain rfl : m' = m := Except.ok.inj (hstep.symm.trans hprodStep)
  refine ⟨m', hstep, ⟨hcons, hgen, ⟨p, _, ⟨hheap, hget, hget'⟩, rfl, rfl⟩, ?_, ?_⟩⟩
  · intro k q s hk hs
    rcases hold k q hk with ⟨-, rfl⟩ | ⟨hk', -⟩
    · obtain rfl := Option.some.inj (hheap.symm.trans hs)
      exact .inl rfl
    · contradiction
  · obtain rfl := Except.ok.inj hprodStep
    rfl

/-- The second user gets one session more, with the next id. -/
theorem exhausting_succ {n : Nat} {m : SessionManager} (h : Exhausting n m) (hn : n < 65535) :
    ∃ m', step m (.produceSession 2) = .ok m' ∧ Exhausting (n + 1) m' := by
  have hsid := h.nextSid_eq (by omega)
  have hfree : m.NextFree (.produceSession 2) := by
    intro p s hp hs
    obtain ⟨t, ht, -, huid⟩ := h.consistent.sessions _ p hp
    obtain rfl : s = t := Option.some.inj (hs.symm.trans ht)
    rcases h.users _ p s hp hs with hu | hu
    · -- user 1 has id 1, and `n + 2` is not 1
      obtain ⟨q, s₁, hf, hs₁, hu₁⟩ := h.first
      obtain ⟨t₁, ht₁, -, huid₁⟩ := h.consistent.sessions _ q hf.getSession
      obtain rfl : s₁ = t₁ := Option.some.inj (hf.heap.symm.trans ht₁)
      rw [hu₁, ← hu, huid, hs₁, hsid, Option.some.injEq] at huid₁
      exact absurd huid₁ (ofInt_ne (y := 1) (by omega))
    · exact hu
  obtain ⟨m', hstep, hcons, hfound⟩ := step_consistent h.consistent _ hfree
  obtain ⟨m'', p, hprod, -, hheap, -, -, huid, hgen, hold⟩ :=
    produceSession_live h.consistent.toLive 2
  obtain rfl : m'' = m' := Except.ok.inj ((step_produceSession hprod).symm.trans hstep)
  refine ⟨m'', hstep, ⟨hcons, ?_, ?_, ?_, ?_⟩⟩
  · rw [hgen, h.sidGen, int32_eq ⟨by omega, by omega⟩]
    push_cast
    rfl
  · obtain ⟨q, s, hf, hs, hu⟩ := h.first
    exact ⟨q, s, hfound q s hf (by rw [hu]; decide) (by rintro ⟨⟩), hs, hu⟩
  · intro k q s hk hs
    rcases hold k q hk with ⟨-, rfl⟩ | ⟨hk', hheap'⟩
    · obtain rfl := Option.some.inj (hheap.symm.trans hs)
      exact .inr rfl
    · exact h.users k q s hk' (hheap'.symm.trans hs)
  · rw [huid, hsid, if_neg (by omega)]
    congr 2

/-- The runs of the counterexample, by induction on their length. -/
theorem exhausting_run (n : Nat) (hn : n ≤ 65535) :
    ∃ m, Run.run step (.produceSession 1 :: List.replicate n (.produceSession 2)) empty = .ok m ∧
      Exhausting n m := by
  induction n with
  | zero =>
      obtain ⟨m, hstep, hm⟩ := exhausting_zero
      exact ⟨m, Run.run_cons_eq_ok.mpr ⟨m, hstep, rfl⟩, hm⟩
  | succ n ih =>
      obtain ⟨m, hrun, hm⟩ := ih (by omega)
      obtain ⟨m', hstep, hm'⟩ := exhausting_succ hm (by omega)
      refine ⟨m', ?_, hm'⟩
      rw [List.replicate_succ', ← List.cons_append]
      exact Run.run_append_eq_ok.mpr ⟨m, hrun, Run.run_cons_eq_ok.mpr ⟨m', hstep, rfl⟩⟩

/-- One more session for user 2 takes id 1 again, and with it user 1's place. -/
theorem not_separate_after_wrap :
    ¬Separate (.produceSession 1 :: List.replicate 65536 (.produceSession 2)) := by
  rintro ⟨m', hrun', howner, -⟩
  obtain ⟨m, hrun, hm⟩ := exhausting_run 65535 (le_refl _)
  have hsid := hm.nextSid_eq (le_refl _)
  obtain ⟨m'', p, hprod, -, hheap, hget, -⟩ := produceSession_live hm.consistent.toLive 2
  -- user 1's entry still names id 1
  obtain ⟨q, s, hf, hs, hu⟩ := hm.first
  obtain ⟨t, ht, -, huid⟩ := hm.consistent.sessions _ q hf.getSession
  obtain rfl : s = t := Option.some.inj (hf.heap.symm.trans ht)
  obtain ⟨m₁, hstop, -, -, hentries, -⟩ := stopCurrent_consistent hm.consistent 2
  have hentry : m''.uidSidMap 1 = some 1 := by
    simp only [produceSession, hstop] at hprod
    obtain ⟨rfl, -⟩ := Prod.mk.inj (Except.ok.inj hprod)
    change update m₁.uidSidMap 2 (some m₁.nextSid) 1 = some 1
    rw [Function.update_of_ne (by decide), hentries 1 (by decide), ← hu, huid, hs]
  have hfinal : Run.run step (.produceSession 1 :: List.replicate 65536 (.produceSession 2)) empty =
      .ok m'' := by
    rw [List.replicate_succ', ← List.cons_append]
    exact Run.run_append_eq_ok.mpr ⟨m, hrun,
      Run.run_cons_eq_ok.mpr ⟨m'', step_produceSession hprod, rfl⟩⟩
  obtain rfl : m' = m'' := Except.ok.inj (hrun'.symm.trans hfinal)
  have hlookup : m'.getSessionByUid 1 = some p := by
    simp only [SessionManager.getSessionByUid, hentry]
    rw [hsid] at hget
    exact hget
  obtain ⟨s', hs', hu'⟩ := howner 1 p hlookup
  rw [← Option.some.inj (hheap.symm.trans hs')] at hu'
  exact absurd (show (2 : U64) = 1 from hu') (by decide)

end SessionManager

end RudpNetwork
