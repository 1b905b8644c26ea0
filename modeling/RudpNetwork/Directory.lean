import Mathlib.Data.List.Basic
import Mathlib.Data.List.Induction
import RudpNetwork.SessionFrame

/-!
# RudpNetwork.Directory

What the sessions of the server are for.

A `Directory` knows of every user the latest request: its number, and where it came
from.  The number is the id of the session, as far as 16 bits go.  `Represents` says
that a `SessionManager` holds exactly the sessions of a directory, each found under its
id and under its user, and no other object; a request that finds its id free keeps it
(`Represents.serve`).

## Main results

* `Represents.serve` — a request that finds its id free keeps the representation.
* `current_ofLog_eq_some` — the entry of a user is the last request of a log.
-/

namespace RudpNetwork

open MachineInt
open Function (update)

/-! ## the directory -/

/-- A request for a session. -/
structure Request where
  uid : U64
  sender : Address
  deriving DecidableEq

/-- The requests that were served: how many, and the number and the sender of the latest
one of each user. -/
structure Directory where
  count : Nat
  current : U64 → Option (Nat × Address)

namespace Directory

/-- Before the first request. -/
def empty : Directory where
  count := 0
  current _ := none

/-- One request more. -/
def serve (d : Directory) (r : Request) : Directory where
  count := d.count + 1
  current := update d.current r.uid (some (d.count + 1, r.sender))

/-- The directory after the requests of a log. -/
def ofLog (log : List Request) : Directory := log.foldl serve empty

/-- The id of the session for request number `n`. -/
def sidAt (n : Nat) : U16 := BitVec.ofNat 16 n

/-- No other user has the id that a request of this user would get. -/
def Free (d : Directory) (uid : U64) : Prop :=
  ∀ v n a, d.current v = some (n, a) → sidAt n = sidAt (d.count + 1) → v = uid

/-- Every request of the log finds its id free. -/
def FreeAlong (log : List Request) : Prop :=
  ∀ before r after, log = before ++ r :: after → (ofLog before).Free r.uid

/-- Before the first request. -/
@[simp] theorem ofLog_nil : ofLog [] = empty := rfl

/-- The last request of a log is served last. -/
theorem ofLog_concat (log : List Request) (r : Request) :
    ofLog (log ++ [r]) = (ofLog log).serve r := by
  rw [ofLog, List.foldl_append]
  rfl

/-- Every request is counted. -/
@[simp] theorem count_ofLog (log : List Request) : (ofLog log).count = log.length := by
  induction log using List.reverseRecOn with
  | nil => rfl
  | append_singleton log r ih =>
      rw [ofLog_concat, List.length_append, ← ih]
      rfl

/-- Where an element lies in a log that has grown. -/
theorem concat_eq_append_cons {α : Type} {log before after : List α} {r x : α} :
    log ++ [r] = before ++ x :: after ↔
      (before = log ∧ x = r ∧ after = []) ∨
        ∃ rest, after = rest ++ [r] ∧ log = before ++ x :: rest := by
  rcases List.eq_nil_or_concat' after with rfl | ⟨rest, last, rfl⟩
  · constructor
    · intro h
      obtain ⟨rfl, hlast⟩ := List.append_inj' h rfl
      exact .inl ⟨rfl, (List.singleton_inj.mp hlast).symm, rfl⟩
    · rintro (⟨rfl, rfl, -⟩ | ⟨rest, hnil, -⟩)
      · rfl
      · exact absurd hnil (by simp)
  · rw [← List.cons_append, ← List.append_assoc]
    constructor
    · intro h
      obtain ⟨rfl, hlast⟩ := List.append_inj' h rfl
      exact .inr ⟨rest, by rw [List.singleton_inj.mp hlast], rfl⟩
    · rintro (⟨-, -, hnil⟩ | ⟨rest', hrest, rfl⟩)
      · exact absurd hnil (by simp)
      · obtain ⟨rfl, hlast⟩ := List.append_inj' hrest rfl
        rw [List.singleton_inj.mp hlast]

/-- The entry of a user is the latest request of the user. -/
theorem current_ofLog_eq_some {log : List Request} {uid : U64} {n : Nat} {a : Address} :
    (ofLog log).current uid = some (n, a) ↔
      ∃ before after, log = before ++ { uid, sender := a } :: after ∧ n = before.length + 1 ∧
        ∀ r ∈ after, r.uid ≠ uid := by
  induction log using List.reverseRecOn generalizing n a with
  | nil =>
      constructor
      · exact fun h => nomatch h
      · rintro ⟨before, after, hnil, -⟩
        exact absurd hnil (by simp)
  | append_singleton log r ih =>
      have hcurrent : (ofLog (log ++ [r])).current uid =
          update (ofLog log).current r.uid (some (log.length + 1, r.sender)) uid := by
        rw [ofLog_concat, serve, count_ofLog]
      rw [hcurrent]
      by_cases huid : uid = r.uid
      · subst huid
        rw [Function.update_self]
        constructor
        · intro h
          obtain ⟨rfl, rfl⟩ := Prod.mk.inj (Option.some.inj h)
          exact ⟨log, [], rfl, rfl, fun r' hr' => absurd hr' List.not_mem_nil⟩
        · rintro ⟨before, after, hlog, rfl, hafter⟩
          rcases concat_eq_append_cons.mp hlog with ⟨rfl, hr, -⟩ | ⟨rest, rfl, -⟩
          · exact congrArg (fun x : Request => some (before.length + 1, x.sender)) hr.symm
          · exact absurd rfl (hafter r (by simp))
      · rw [Function.update_of_ne huid, ih]
        constructor
        · rintro ⟨before, after, rfl, rfl, hafter⟩
          refine ⟨before, after ++ [r], by simp, rfl, fun r' hr' => ?_⟩
          rcases List.mem_append.mp hr' with hold | hnew
          · exact hafter r' hold
          · obtain rfl := List.mem_singleton.mp hnew
            exact Ne.symm huid
        · rintro ⟨before, after, hlog, rfl, hafter⟩
          rcases concat_eq_append_cons.mp hlog with ⟨-, rfl, -⟩ | ⟨rest, rfl, rfl⟩
          · exact absurd rfl huid
          · exact ⟨before, rest, rfl, rfl, fun r' hr' => hafter r' (List.mem_append_left _ hr')⟩

/-- The entry of a user is in the log, at its number. -/
theorem getElem?_of_current {log : List Request} {uid : U64} {n : Nat} {a : Address}
    (h : (ofLog log).current uid = some (n, a)) :
    0 < n ∧ log[n - 1]? = some { uid, sender := a } := by
  obtain ⟨before, after, rfl, rfl, -⟩ := current_ofLog_eq_some.mp h
  refine ⟨Nat.succ_pos _, ?_⟩
  rw [Nat.add_sub_cancel, List.getElem?_append_right (le_refl _), Nat.sub_self]
  rfl

/-- A user with a request has an entry. -/
theorem current_of_mem {log : List Request} {r : Request} (h : r ∈ log) :
    ∃ n a, (ofLog log).current r.uid = some (n, a) := by
  induction log using List.reverseRecOn with
  | nil => exact absurd h List.not_mem_nil
  | append_singleton log r' ih =>
      have hcurrent : (ofLog (log ++ [r'])).current r.uid =
          update (ofLog log).current r'.uid (some (log.length + 1, r'.sender)) r.uid := by
        rw [ofLog_concat, serve, count_ofLog]
      rw [hcurrent]
      by_cases huid : r.uid = r'.uid
      · rw [huid, Function.update_self]
        exact ⟨_, _, rfl⟩
      · rw [Function.update_of_ne huid]
        refine ih ((List.mem_append.mp h).resolve_right fun hr => huid ?_)
        rw [List.mem_singleton.mp hr]

/-- The first 65536 ids differ. -/
theorem sidAt_inj {m n : Nat} (hm : m < 65536) (hn : n < 65536)
    (h : sidAt (m + 1) = sidAt (n + 1)) : m = n := by
  have hnat := congrArg BitVec.toNat h
  simp only [sidAt, BitVec.toNat_ofNat] at hnat
  omega

/-- A log whose requests find their ids free, without its last request. -/
theorem FreeAlong.init {log : List Request} {r : Request} (h : FreeAlong (log ++ [r])) :
    FreeAlong log ∧ (ofLog log).Free r.uid := by
  constructor
  · rintro before r' after rfl
    exact h before r' (after ++ [r]) (by rw [List.append_assoc, List.cons_append])
  · exact h log r [] rfl

/-- Ids come back after 65536 requests. -/
theorem freeAlong_of_length {log : List Request} (h : log.length ≤ 65536) : FreeAlong log := by
  rintro before r after rfl v n a hv hsid
  rw [count_ofLog] at hsid
  obtain ⟨before', after', rfl, rfl, -⟩ := current_ofLog_eq_some.mp hv
  have hnat := congrArg BitVec.toNat hsid
  simp only [sidAt, BitVec.toNat_ofNat, List.length_append, List.length_cons] at hnat h
  omega

end Directory

/-! ## the sessions of a directory -/

/-- The sessions of a manager are those of a directory, and it has no other objects. -/
structure Represents (m : SessionManager) (d : Directory) : Prop where
  consistent : m.Consistent
  count : (m.sidGen - d.count) % 65536 = 0
  found : ∀ uid n a, d.current uid = some (n, a) →
    ∃ p, m.Found p { sid := Directory.sidAt n, uid, peer := a }
  objects : ∀ p s, m.heap p = some s →
    m.Found p s ∧ ∃ n, d.current s.uid = some (n, s.peer) ∧ s.sid = Directory.sidAt n

namespace SessionManager

/-- A lookup by user finds the session of that user. -/
theorem Consistent.found_of_getSessionByUid {m : SessionManager} (h : m.Consistent) {uid : U64}
    {p : SessionPtr} (hp : m.getSessionByUid uid = some p) :
    ∃ s, m.Found p s ∧ s.uid = uid := by
  obtain ⟨k, hk, hkp⟩ := entry_of_getSessionByUid hp
  obtain ⟨s, hs, huid⟩ := h.getSessionByUid_eq_some hp
  obtain ⟨t, ht, hsid, -⟩ := h.sessions k p hkp
  obtain rfl := Option.some.inj (hs.symm.trans ht)
  exact ⟨s, ⟨hs, by rwa [hsid], by rwa [huid]⟩, huid⟩

/-- `stopCurrent` deletes the object of the user. -/
theorem stopCurrent_heap {m m' : SessionManager} (h : m.Consistent) {uid : U64}
    (hstop : m.stopCurrent uid = .ok m') {q : SessionPtr} {s : Session}
    (hq : m'.heap q = some s) : m.heap q = some s ∧ m.getSessionByUid uid ≠ some q := by
  cases hcur : m.getSessionByUid uid with
  | none =>
      have hsame : m.stopCurrent uid = .ok m := by
        simp only [stopCurrent, hcur]
        rfl
      obtain rfl := Except.ok.inj (hsame.symm.trans hstop)
      exact ⟨hq, fun h => absurd h (Option.some_ne_none q).symm⟩
  | some p =>
      obtain ⟨t, hfound, -⟩ := h.found_of_getSessionByUid hcur
      obtain ⟨t', m₁, ht', -, -, hrun, hd⟩ := destroySession_destroyed h hfound.getSession
      have hrun' : m.stopCurrent uid = .ok m₁ := by
        simp only [stopCurrent, hcur, deref_eq_ok.mpr hfound.heap]
        exact hrun
      obtain rfl := Except.ok.inj (hrun'.symm.trans hstop)
      rw [hd.heap] at hq
      by_cases hqp : q = p
      · subst hqp
        rw [Function.update_self] at hq
        contradiction
      · rw [Function.update_of_ne hqp] at hq
        exact ⟨hq, fun heq => hqp (Option.some.inj heq).symm⟩

/-- A peer does not matter for the maps. -/
theorem setPeer_consistent {m m' : SessionManager} (h : m.Consistent) {p : SessionPtr}
    {peer : Address} (hrun : m.setPeer p peer = .ok m') : m'.Consistent := by
  obtain ⟨s, hs, hrun'⟩ := Except.bind_eq_ok_iff.mp hrun
  have hheap := deref_eq_ok.mp hs
  obtain ⟨m₁, hrun₁, hlive, rfl⟩ := setPeer_live h.toLive hheap peer
  obtain rfl := Except.ok.inj (hrun₁.symm.trans hrun)
  refine { hlive with owners := fun uid k hk => ?_ }
  obtain ⟨q, t, hq, ht, htuid⟩ := h.owners uid k hk
  by_cases hqp : q = p
  · subst hqp
    obtain rfl := Option.some.inj (ht.symm.trans hheap)
    exact ⟨q, { t with peer }, hq, Function.update_self _ _ _, htuid⟩
  · exact ⟨q, t, hq, (Function.update_of_ne hqp _ _).trans ht, htuid⟩

end SessionManager

open SessionManager

/-- A new manager represents the empty directory. -/
theorem represents_empty : Represents SessionManager.empty .empty where
  consistent := empty_consistent
  count := rfl
  found _ _ _ h := nomatch h
  objects _ _ h := nomatch h

variable {m : SessionManager} {d : Directory}

/-- The id that `ProduceSession` gives out. -/
theorem Represents.nextSid (h : Represents m d) : m.nextSid = Directory.sidAt (d.count + 1) := by
  have hcount := h.count
  rw [nextSid_eq, Directory.sidAt]
  apply BitVec.eq_of_toNat_eq
  rw [BitVec.toNat_ofInt, BitVec.toNat_ofNat]
  omega

/-- Once the session of the user is gone, a free id is in nobody's use. -/
theorem Represents.stopCurrent (h : Represents m d) {uid : U64} (hfree : d.Free uid) :
    ∃ m₁, m.stopCurrent uid = .ok m₁ ∧ m₁.Consistent ∧ m₁.uidSidMap uid = none ∧
      m₁.nextSid = Directory.sidAt (d.count + 1) ∧ m₁.sidGen = m.sidGen ∧
      m₁.sessionMap m₁.nextSid = none ∧
      (∀ p s, m.Found p s → s.uid ≠ uid → m₁.Found p s) ∧
      ∀ p s, m₁.heap p = some s → m.heap p = some s ∧ s.uid ≠ uid := by
  obtain ⟨m₁, hstop, hcons, hnone, -, hfound⟩ := stopCurrent_consistent h.consistent uid
  obtain ⟨m₁', hstop', -, -, ⟨-, hgen⟩, -⟩ := stopCurrent_live h.consistent.toLive uid
  obtain rfl := Except.ok.inj (hstop'.symm.trans hstop)
  have hsid : m₁'.nextSid = Directory.sidAt (d.count + 1) := by
    rw [← h.nextSid, SessionManager.nextSid, SessionManager.nextSid, hgen]
  have hobjects : ∀ p s, m₁'.heap p = some s → m.heap p = some s ∧ s.uid ≠ uid := by
    intro p s hp
    obtain ⟨hold, hother⟩ := stopCurrent_heap h.consistent hstop hp
    refine ⟨hold, ?_⟩
    rintro rfl
    exact hother (h.objects p s hold).1.getSessionByUid
  refine ⟨m₁', hstop, hcons, hnone, hsid, hgen, ?_, hfound, hobjects⟩
  cases hk : m₁'.sessionMap m₁'.nextSid with
  | none => rfl
  | some p =>
      obtain ⟨s, hs, hsids, -⟩ := hcons.sessions _ p hk
      obtain ⟨hold, hne⟩ := hobjects p s hs
      obtain ⟨-, n, hn, hsidn⟩ := h.objects p s hold
      refine absurd (hfree s.uid n s.peer hn ?_) hne
      rw [← hsidn, hsids, hsid]

/-- A request that finds its id free is served: its user gets the session of the request,
and every other session stays. -/
theorem Represents.serve (h : Represents m d) {r : Request} (hfree : d.Free r.uid) :
    ∃ m₁ p m', m.produceSession r.uid = .ok (m₁, p) ∧ m₁.setPeer p r.sender = .ok m' ∧
      Represents m' (d.serve r) := by
  obtain ⟨m₀, hstop, hcons, hnone, hsid, hgen, hfreeSid, hkept, hobjects⟩ := h.stopCurrent hfree
  obtain ⟨hcons₁, hkept₁⟩ := insertSession_consistent hcons hnone hfreeSid
  have hproduce : m.produceSession r.uid = .ok (m₀.insertSession r.uid, m₀.next) := by
    simp only [SessionManager.produceSession, hstop]
    rfl
  have hnew : (m₀.insertSession r.uid).heap m₀.next =
      some { sid := m₀.nextSid, uid := r.uid, peer := .clear } := Function.update_self _ _ _
  obtain ⟨m', hpeer, -, hm'⟩ := setPeer_live hcons₁.toLive hnew r.sender
  have hcons' := setPeer_consistent hcons₁ hpeer
  have hself : m'.Found m₀.next { sid := m₀.nextSid, uid := r.uid, peer := r.sender } := by
    rw [hm']
    refine ⟨Function.update_self _ _ _, Function.update_self _ _ _, ?_⟩
    simp [SessionManager.getSessionByUid, SessionManager.getSession, insertSession]
  have hother : ∀ p s, m.Found p s → s.uid ≠ r.uid → m'.Found p s := by
    intro p s hf hne
    have hf₀ := hkept p s hf hne
    have hf₁ := hkept₁ p s hf₀ hne
    have hp : p ≠ m₀.next := by
      rintro rfl
      exact absurd ((hcons.fresh _ (le_refl _)).symm.trans hf₀.heap) (Option.some_ne_none s).symm
    rw [hm']
    exact ⟨(Function.update_of_ne hp _ _).trans hf₁.heap, hf₁.getSession, hf₁.getSessionByUid⟩
  refine ⟨_, _, m', hproduce, hpeer, hcons', ?_, fun uid n a hn => ?_, fun p s hp => ?_⟩
  · have hcount := h.count
    have hgen' : m'.sidGen = int32 (m.sidGen + 1) := by
      rw [hm', ← hgen]
      rfl
    rw [hgen', Directory.serve]
    unfold int32
    push_cast
    omega
  · change update d.current r.uid (some (d.count + 1, r.sender)) uid = some (n, a) at hn
    by_cases huid : uid = r.uid
    · subst huid
      rw [Function.update_self] at hn
      obtain ⟨rfl, rfl⟩ := Prod.mk.inj (Option.some.inj hn)
      exact ⟨_, hsid ▸ hself⟩
    · rw [Function.update_of_ne huid] at hn
      obtain ⟨p, hp⟩ := h.found uid n a hn
      exact ⟨p, hother p _ hp huid⟩
  · by_cases hnext : p = m₀.next
    · subst hnext
      obtain rfl := Option.some.inj (hself.heap.symm.trans hp)
      exact ⟨hself, d.count + 1, Function.update_self _ _ _, hsid⟩
    · have hold : m₀.heap p = some s := by
        rw [hm'] at hp
        exact (Function.update_of_ne hnext _ _).symm.trans
          ((Function.update_of_ne hnext _ _).symm.trans hp)
      obtain ⟨hp₀, hne⟩ := hobjects p s hold
      obtain ⟨hfound, n, hn, hsidn⟩ := h.objects p s hp₀
      exact ⟨hother p s hfound hne, n, (Function.update_of_ne hne _ _).trans hn, hsidn⟩

end RudpNetwork
