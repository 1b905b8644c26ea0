import RudpNetwork.Session

/-!
# RudpNetwork.SessionFrame

What the calls of `SessionManager` leave alone.  `Destroyed` and `Produced` say of
the state before and after a call everything that another user can see: the
sessions by id, the sessions by user, and the objects behind them.

## Main results

* `destroySession_destroyed`, `produceSession_produced` — what one call has done.
* `touchOnlyTheirUser` — the calls for one user leave every other user alone.
-/

namespace RudpNetwork

open MachineInt
open Function (update)

namespace SessionManager

/-! ## the states before and after -/

/-- From `m` to `m'` the session `s`, the object `p`, is gone with the entry of its
user, and nothing else. -/
structure Destroyed (m : SessionManager) (p : SessionPtr) (s : Session) (m' : SessionManager) :
    Prop where
  consistent : m'.Consistent
  sessionMap : m'.sessionMap = update m.sessionMap s.sid none
  uidSidMap : m'.uidSidMap = update m.uidSidMap s.uid none
  heap : m'.heap = update m.heap p none
  getSession : ∀ k, k ≠ s.sid → m'.getSession k = m.getSession k
  getSessionByUid : ∀ uid, uid ≠ s.uid → m'.getSessionByUid uid = m.getSessionByUid uid
  next : m'.next = m.next
  sidGen : m'.sidGen = m.sidGen

/-- From `m` to `m'` the user `uid` has got the session `p`, and has lost the one
before it if there was one. -/
structure Produced (m : SessionManager) (uid : U64) (p : SessionPtr) (m' : SessionManager) :
    Prop where
  consistent : m'.Consistent
  found : ∃ s, m'.Found p s ∧ s.sid = m.nextSid ∧ s.uid = uid
  getSession : ∀ k q, m.getSession k = some q → m.getSessionByUid uid ≠ some q →
    m'.getSession k = some q
  getSessionByUid : ∀ v, v ≠ uid → m'.getSessionByUid v = m.getSessionByUid v
  heap : ∀ q s, m.heap q = some s → m.getSessionByUid uid ≠ some q → m'.heap q = some s
  none_new : ∀ k q, m'.getSession k = some q → q = p ∨ m.getSession k = some q

/-- The next id is the counter modulo 65536. -/
theorem nextSid_eq (m : SessionManager) : m.nextSid = BitVec.ofInt 16 (m.sidGen + 1) := by
  apply BitVec.eq_of_toNat_eq
  rw [nextSid, BitVec.toNat_ofInt, BitVec.toNat_ofInt]
  unfold int32
  omega

/-! ## `DestroySession` -/

/-- In a consistent state the entry of another user names another id. -/
theorem Consistent.entry_ne {m : SessionManager} (h : m.Consistent) {p : SessionPtr} {s : Session}
    (hp : m.sessionMap s.sid = some p) (hs : m.heap p = some s) {uid : U64} (huid : uid ≠ s.uid)
    {k : U16} (hk : m.uidSidMap uid = some k) : k ≠ s.sid := by
  rintro rfl
  obtain ⟨q, t, hq, ht, htuid⟩ := h.owners uid _ hk
  obtain rfl : p = q := Option.some.inj (hp.symm.trans hq)
  obtain rfl : s = t := Option.some.inj (hs.symm.trans ht)
  exact huid htuid.symm

/-- What `DestroySession` did, and to whom. -/
theorem destroySession_destroyed {m : SessionManager} (h : m.Consistent) {k : U16}
    {p : SessionPtr} (hk : m.getSession k = some p) :
    ∃ s m', m.heap p = some s ∧ s.sid = k ∧ m.uidSidMap s.uid = some k ∧
      m.destroySession k = .ok m' ∧ m.Destroyed p s m' := by
  obtain ⟨s, hs, rfl, huid, hrun⟩ := destroySession_of_live h.toLive hk
  obtain ⟨m', hrun', hcons, -⟩ := destroySession_consistent h s.sid
  obtain rfl := Except.ok.inj (hrun'.symm.trans hrun)
  refine ⟨s, _, hs, rfl, huid, hrun, ⟨hcons, rfl, rfl, rfl, fun k hne => ?_, fun v hv => ?_, rfl, rfl⟩⟩
  · exact Function.update_of_ne hne _ _
  · -- the user's entry stays, and so does the session it names
    simp only [SessionManager.getSessionByUid, Function.update_of_ne hv]
    cases hentry : m.uidSidMap v with
    | none => rfl
    | some j => exact Function.update_of_ne (h.entry_ne hk hs hv hentry) _ _

/-! ## `ProduceSession` -/

/-- Before the new session is made, the user has none, and the others have what
they had. -/
theorem stopCurrent_frame {m : SessionManager} (h : m.Consistent) (uid : U64) :
    ∃ m', m.stopCurrent uid = .ok m' ∧ m'.Consistent ∧ m'.uidSidMap uid = none ∧
      (m'.next = m.next ∧ m'.sidGen = m.sidGen) ∧
      (∀ k q, m.getSession k = some q → m.getSessionByUid uid ≠ some q →
        m'.getSession k = some q) ∧
      (∀ v, v ≠ uid → m'.getSessionByUid v = m.getSessionByUid v) ∧
      (∀ q, m.getSessionByUid uid ≠ some q → m'.heap q = m.heap q) ∧
      ∀ k q, m'.getSession k = some q → m.getSession k = some q := by
  obtain ⟨m', hstop, hcons, hnone, -⟩ := stopCurrent_consistent h uid
  refine ⟨m', hstop, hcons, hnone, ?_⟩
  cases hcur : m.getSessionByUid uid with
  | none =>
      have hsame : m.stopCurrent uid = .ok m := by
        simp only [stopCurrent, hcur]
        rfl
      obtain rfl := Except.ok.inj (hsame.symm.trans hstop)
      exact ⟨⟨rfl, rfl⟩, fun _ _ hk _ => hk, fun _ _ => rfl, fun _ _ => rfl, fun _ _ hk => hk⟩
  | some p =>
      obtain ⟨s, hs, huid⟩ := h.getSessionByUid_eq_some hcur
      have hp : m.getSession s.sid = some p := by
        obtain ⟨k, -, hkp⟩ := entry_of_getSessionByUid hcur
        obtain ⟨t, ht, htsid, -⟩ := h.sessions k p hkp
        obtain rfl : s = t := Option.some.inj (hs.symm.trans ht)
        rwa [htsid]
      obtain ⟨t, m₁, ht, -, -, hrun, hd⟩ := destroySession_destroyed h hp
      obtain rfl : s = t := Option.some.inj (hs.symm.trans ht)
      have hderef : m.deref p = .ok s := deref_eq_ok.mpr hs
      have hrun' : m.stopCurrent uid = .ok m₁ := by
        simp only [stopCurrent, hcur, hderef]
        exact hrun
      obtain rfl := Except.ok.inj (hrun'.symm.trans hstop)
      refine ⟨⟨hd.next, hd.sidGen⟩, fun k q hk hne => ?_, fun v hv => ?_, fun q hne => ?_,
        fun k q hk => ?_⟩
      · have hkne : k ≠ s.sid := by
          rintro rfl
          exact hne (hp.symm.trans hk)
        rw [hd.getSession k hkne, hk]
      · exact hd.getSessionByUid v (huid ▸ hv)
      · have hqne : q ≠ p := by
          rintro rfl
          exact hne rfl
        rw [hd.heap, Function.update_of_ne hqne]
      · have hkne : k ≠ s.sid := by
          rintro rfl
          rw [SessionManager.getSession, hd.sessionMap, Function.update_self] at hk
          contradiction
        rw [← hd.getSession k hkne, hk]

/-- What `ProduceSession` did, where the next id is free. -/
theorem produceSession_produced {m : SessionManager} (h : m.Consistent) (uid : U64)
    (hfree : m.getSession m.nextSid = none) :
    ∃ m' p, m.produceSession uid = .ok (m', p) ∧ m.Produced uid p m' := by
  obtain ⟨m₁, hstop, hcons, hnone, ⟨hnext, hgen⟩, hkept, hothers, hheap, hold⟩ :=
    stopCurrent_frame h uid
  have hsid : m₁.nextSid = m.nextSid := by rw [nextSid, nextSid, hgen]
  have hfree₁ : m₁.sessionMap m₁.nextSid = none := by
    cases hk : m₁.sessionMap m₁.nextSid with
    | none => rfl
    | some q =>
        have hq := hold _ q hk
        rw [hsid, hfree] at hq
        contradiction
  obtain ⟨hcons', -⟩ := insertSession_consistent hcons hnone hfree₁
  have hkey : ∀ k q, m₁.getSession k = some q → k ≠ m₁.nextSid := by
    rintro k q hk rfl
    exact absurd (hk.symm.trans hfree₁) (Option.some_ne_none q)
  refine ⟨m₁.insertSession uid, m₁.next, ?_, hcons',
    ⟨{ sid := m₁.nextSid, uid, peer := .clear }, ⟨?_, ?_, ?_⟩, hsid, rfl⟩, fun k q hk hne => ?_,
    fun v hv => ?_, fun q s hq hne => ?_, fun k q hk => ?_⟩
  · simp only [produceSession, hstop]
    rfl
  · exact Function.update_self _ _ _
  · exact Function.update_self _ _ _
  · simp [SessionManager.getSessionByUid, SessionManager.getSession, insertSession]
  · have hk₁ := hkept k q hk hne
    exact (Function.update_of_ne (hkey k q hk₁) _ _).trans hk₁
  · rw [← hothers v hv]
    simp only [SessionManager.getSessionByUid, insertSession, Function.update_of_ne hv]
    cases hentry : m₁.uidSidMap v with
    | none => rfl
    | some j =>
        obtain ⟨q, s, hq, -, -⟩ := hcons.owners v j hentry
        exact Function.update_of_ne (hkey j q hq) _ _
  · have hq₁ : m₁.heap q = some s := (hheap q hne).trans hq
    have hqne : q ≠ m₁.next := by
      rintro rfl
      rw [hcons.fresh _ (le_refl _)] at hq₁
      contradiction
    exact (Function.update_of_ne hqne _ _).trans hq₁
  · change update m₁.sessionMap m₁.nextSid (some m₁.next) k = some q at hk
    by_cases hnew : k = m₁.nextSid
    · rw [hnew, Function.update_self] at hk
      exact .inl (Option.some.inj hk).symm
    · rw [Function.update_of_ne hnew] at hk
      exact .inr (hold k q hk)

/-- The calls touch only the session and the user they are made for. -/
theorem touchOnlyTheirUser {m : SessionManager} (h : m.Consistent) :
    (∀ sid, m.getSession sid = none → m.destroySession sid = .ok m) ∧
      (∀ sid p, m.getSession sid = some p →
        ∃ s m', m.heap p = some s ∧ s.sid = sid ∧ m.uidSidMap s.uid = some sid ∧
          m.destroySession sid = .ok m' ∧ m.Destroyed p s m') ∧
      ∀ uid, m.getSession (BitVec.ofInt 16 (m.sidGen + 1)) = none →
        ∃ m' p, m.produceSession uid = .ok (m', p) ∧ m.Produced uid p m' := by
  refine ⟨fun sid hk => destroySession_of_none hk, fun sid p hk => destroySession_destroyed h hk,
    fun uid hfree => produceSession_produced h uid ?_⟩
  rw [nextSid_eq]
  exact hfree

/-- Users 1 and 2 with a session each. -/
def twoUsers : SessionManager := (empty.insertSession 1).insertSession 2

/-- The manager of the example. -/
theorem twoUsers_consistent : twoUsers.Consistent := by
  obtain ⟨hone, -⟩ := @insertSession_consistent empty empty_consistent 1 rfl rfl
  exact (insertSession_consistent hone rfl rfl).1

/-- Destroying the session of one user leaves the other user alone. -/
theorem touchOnlyTheirUser_twoUsers :
    ∃ m', twoUsers.destroySession 1 = .ok m' ∧
      m'.getSessionByUid 2 = twoUsers.getSessionByUid 2 := by
  obtain ⟨-, hlive, -⟩ := touchOnlyTheirUser twoUsers_consistent
  obtain ⟨s, m', hs, -, -, hrun, hd⟩ := hlive 1 0 rfl
  obtain rfl : s = { sid := 1, uid := 1, peer := .clear } := Option.some.inj (hs.symm.trans rfl)
  exact ⟨m', hrun, hd.getSessionByUid 2 (by decide)⟩

end SessionManager

end RudpNetwork
