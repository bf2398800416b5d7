import Celium.Lib.Ledger
import Celium.StoreIndex
import Celium.StoreUproot
/-!
# StoreLogin — who is let in, read off the calls

Which tokens and which passwords a store accepts is a matter of its calls and their answers alone.  The session table is
a ledger of them: `createSession` enters a row, and the calls of `endsSession` take it out (`sessions_step`).  So is
the table of password hashes, spread over the user records: `setPassword` enters a row, and the calls of `endsPassword`
take it out (`passwords_step`).
-/
namespace Celium

open Fixed Forest Runs StoreState

/-- One call of the store and its answer. -/
abbrev StoreCall : Type := Op × CelResult Reply

/-! ## Sessions -/

/-- The session that a call minted. -/
def mintedSession : StoreCall → Option Session
  | (.createSession .., .ok (.minted _ session)) => some session
  | _                                            => none

/-- The call ends the session: revokes it, alone or with its user or tenant; purges it; or mints another with its
token. -/
def endsSession (cr : Crypto) : StoreCall → Session → Bool
  | (.createSession .., .ok (.minted _ session)), ss => ss.tokenHash = session.tokenHash
  | (.revokeToken token, _), ss => ss.tokenHash = hashToken cr token
  | (.purgeExpiredSessions nowMs, _), ss => ss.isExpiredAt nowMs
  | (.removeUser tenant user, .ok _), ss => ss.tenant == tenant && ss.user == user
  | (.setPassword tenant user .., .ok _), ss => ss.tenant == tenant && ss.user == user
  | (.revokeUserSessions tenant user, .ok _), ss => ss.tenant == tenant && ss.user == user
  | (.revokeTenantSessions tenant, .ok _), ss => ss.tenant = tenant
  | (.rotateRootCaps tenant _, .ok _), ss => ss.tenant = tenant
  | (.deleteTenantRecursive .., .ok (.deleted report)), ss => ss.tenant ∈ report.deletedTenants.map Prod.fst
  | _, _ => false

def sessionRules (cr : Crypto) : Ledger.Rules StoreCall Session where
  enters := mintedSession
  spares c ss := !endsSession cr c ss

variable {cr : Crypto} {s : StoreState}

/-- A call that enters no session and ends none. -/
theorem post_same {c : StoreCall} (hm : mintedSession c = none) (he : ∀ ss, endsSession cr c ss = false)
    (l : List Session) : (sessionRules cr).post l c = l := by
  simp [Ledger.Rules.post, sessionRules, hm, he]

/-- A call that enters no session. -/
theorem post_filter {c : StoreCall} (keep : Session → Bool) (hm : mintedSession c = none)
    (he : ∀ ss, keep ss = !endsSession cr c ss) (l : List Session) :
    (sessionRules cr).post l c = l.filter keep := by
  simp [Ledger.Rules.post, sessionRules, hm, funext he]

/-- A recursive delete changes nothing, or takes out the tenants it reports. -/
theorem deleteTenantRecursive_ok_or_same (hwf : s.TreeWf) (tenant : TenantId) (ord : HashOrder Tenant) :
    (∃ e, s.deleteTenantRecursive tenant ord = (.error e, s)) ∨
    ∃ l, s.deleteTenantRecursive tenant ord = (.ok (s.reported default l), s.without l) := by
  rcases deleteTenantRecursive_cases hwf tenant ord with ⟨e, he, -⟩ | ⟨report, s', hok, -, hshallow⟩
  · exact .inl ⟨e, he⟩
  have hlive : ∃ t, s.tenants.lookup tenant.raw = some t := by
    rw [deleteTenantRecursive] at hok
    split at hok
    · cases hok
    · rename_i hsome
      exact Option.isSome_iff_exists.1 (by simpa [Option.isSome_iff_ne_none] using hsome)
  obtain ⟨l, -, -, ⟨-, he⟩ | ⟨-, he⟩⟩ := deleteTenantRecursive_eq hwf hlive hshallow ord
  · exact .inr ⟨l, he⟩
  · exact .inl ⟨_, he⟩

/-- **The sessions of a store follow the ledger**, whatever the call and its answer. -/
theorem sessions_step (cr : Crypto) (hwf : s.TreeWf) (op : Op) :
    (step cr s op).2.sessions = (sessionRules cr).post s.sessions (op, (step cr s op).1) := by
  cases op with
  | create spec rootCaps =>
    rw [post_same rfl (fun _ => rfl)]
    rcases s.create_cases spec rootCaps with ⟨e, he, -⟩ | ⟨e, he, -⟩ | ⟨t, s', he, -, hg, -⟩ <;>
      simp only [step, answer_snd, he]
    rw [hg.eq]
  | delete id =>
    rw [post_same rfl (fun _ => rfl)]
    rcases s.delete_cases id with ⟨e, he, -⟩ | ⟨t, s', he, hd⟩ <;> simp only [step, answer_snd, he]
    rw [hd.eq]
    exact List.filter_true _
  | addUser tenant userName requestedCaps =>
    rw [post_same rfl (fun _ => rfl)]
    rcases s.addUser_cases tenant userName requestedCaps with ⟨e, he⟩ | ⟨t, u, s', he, hr, -⟩ <;>
      simp only [step, answer_snd, he]
    rw [hr.sessions]
    exact List.filter_true _
  | removeUser tenant user =>
    rcases s.removeUser_cases tenant user with ⟨e, he⟩ | ⟨t, s', he, hr, -⟩ <;> simp only [step, answer, he]
    · rw [post_same rfl (fun _ => rfl)]
    · rw [hr.sessions, post_filter _ rfl]
      exact fun _ => rfl
  | charge tenant c =>
    rw [post_same rfl (fun _ => rfl)]
    rcases s.charge_cases tenant c with ⟨e, he, -⟩ | ⟨chain, u, s', he, -, -, hr, -⟩ <;>
      simp only [step, answer_snd, he]
    exact hr.sessions
  | release tenant c =>
    rw [post_same rfl (fun _ => rfl)]
    rcases s.release_cases tenant c with ⟨e, he, -⟩ | ⟨chain, u, s', he, -, hr, -⟩ <;>
      simp only [step, answer_snd, he]
    exact hr.sessions
  | setPassword tenant user plain salt =>
    rcases s.setPassword_cases cr tenant user plain salt with ⟨e, he⟩ | ⟨t, i, hash, s', he, hr, -⟩ <;>
      simp only [step, answer, he]
    · rw [post_same rfl (fun _ => rfl)]
    · rw [hr.sessions, post_filter _ rfl]
      exact fun _ => rfl
  | createSession tenant user requestedCaps ttlSecs rand nowMs =>
    rcases s.createSession_cases cr tenant user requestedCaps ttlSecs rand nowMs with
      ⟨e, he⟩ | ⟨t, u, token, session, he, -⟩ <;> simp only [step, answer, he]
    · rw [post_same rfl (fun _ => rfl)]
    · rw [Ledger.Rules.post]
      congr 1
      refine List.filter_congr fun ss _ => ?_
      simp [sessionRules, endsSession, Except.map]
  | revokeToken token =>
    rw [post_filter _ rfl]
    · rfl
    · intro ss
      simp [endsSession]
  | purgeExpiredSessions nowMs =>
    rw [post_filter _ rfl (fun _ => rfl)]
    rfl
  | revokeUserSessions tenant user =>
    simp only [step, answer, revokeUserSessions]
    split
    · rw [post_same rfl (fun _ => rfl)]
    · rw [post_filter _ rfl (fun _ => rfl)]
      rfl
  | revokeTenantSessions tenant =>
    simp only [step, answer, revokeTenantSessions]
    split
    · rw [post_same rfl (fun _ => rfl)]
    · rw [post_filter (fun ss => ss.tenant ≠ tenant) rfl]
      · rfl
      · intro ss
        simp [endsSession, Except.map]
  | rotateRootCaps tenant newCaps =>
    rcases s.rotateRootCaps_cases tenant newCaps with ⟨e, he, -⟩ | ⟨t, report, s', he, -, hr, -⟩ <;>
      simp only [step, answer, he]
    · rw [post_same rfl (fun _ => rfl)]
    · rw [hr.sessions, post_filter _ rfl]
      intro ss
      simp [endsSession, Except.map]
  | deleteTenantRecursive tenant ord =>
    rcases deleteTenantRecursive_ok_or_same hwf tenant ord with ⟨e, he⟩ | ⟨l, he⟩ <;> simp only [step, answer, he]
    · rw [post_same rfl (fun _ => rfl)]
    · rw [post_filter (fun ss => ss.tenant ∉ l) rfl]
      · rfl
      · intro ss
        simp [endsSession, Except.map, reported_ids]

theorem usersWf_default : (default : StoreState).UsersWf :=
  ⟨by simp [roster, default], by simp [roster, default], by simp [roster, default], by simp [roster, default]⟩

/-- What every store a run leaves has: the hierarchy, the users and the tokens in order. -/
theorem run_coherent (cr : Crypto) (ops : List Op) : (run (step cr) default ops).Coherent :=
  coherent_of_wf (run_treeWf cr ops)
    (inv_of_effect cr usersWf_default (fun _ _ _ hwf h he => he.usersWf hwf h) ops)
    (inv_of_effect (I := fun s => (s.sessions.map (·.tokenHash)).Nodup) cr (by simp [default])
      (fun _ _ _ _ h he => he.tokens h) ops)

theorem run_sessions (cr : Crypto) (ops : List Op) :
    (run (step cr) default ops).sessions = (sessionRules cr).standing (history (step cr) default ops) := by
  have hstart : (default : StoreState).TreeWf ∧
      (default : StoreState).sessions = (sessionRules cr).standing [] := ⟨treeWf_default, rfl⟩
  refine (inv_history (I := fun (s : StoreState) past => s.TreeWf ∧ s.sessions = (sessionRules cr).standing past) ?_ hstart ops).2
  rintro s past op ⟨hwf, hs⟩
  refine ⟨step_treeWf cr s op hwf, ?_⟩
  rw [Ledger.Rules.standing_concat, ← hs]
  exact sessions_step cr hwf op

/-- A token is accepted for the session that has its hash, while it has not expired. -/
theorem validateToken_ok_iff (hnd : (s.sessions.map (·.tokenHash)).Nodup) {token : SessionToken} {nowMs : UInt64}
    {ss : Session} : s.validateToken cr token nowMs = .ok ss ↔
      ss ∈ s.sessions ∧ ss.tokenHash = hashToken cr token ∧ ss.isExpiredAt nowMs = false := by
  constructor
  · intro h
    rw [validateToken] at h
    split at h
    · cases h
    rename_i ss' hfind
    split at h
    · cases h
    rename_i hlive
    obtain rfl := Except.ok.inj h
    exact ⟨List.mem_of_find?_eq_some hfind, by simpa using List.find?_some hfind, by simpa using hlive⟩
  · rintro ⟨hmem, hhash, hlive⟩
    have hfind : s.sessions.find? (fun x => x.tokenHash == hashToken cr token) = some ss := by
      cases hf : s.sessions.find? (fun x => x.tokenHash == hashToken cr token) with
      | none => exact absurd (List.find?_eq_none.1 hf ss hmem) (by simp [hhash])
      | some x =>
        have hx : x.tokenHash = ss.tokenHash := by
          rw [hhash]
          simpa using List.find?_some hf
        rw [List.inj_on_of_nodup_map hnd (List.mem_of_find?_eq_some hf) hmem hx]
    simp [validateToken, hfind, hlive]

/-- **A token opens a session iff a call of the run minted it for that token, it has not expired, and no later call
ended it.**  What the calls answered decides: a refused call ends nothing, and a deleted tenant's sessions end only
with a recursive delete that reported it. -/
theorem validateToken_iff (cr : Crypto) (ops : List Op) (token : SessionToken) (nowMs : UInt64) (ss : Session) :
    (run (step cr) default ops).validateToken cr token nowMs = .ok ss ↔
      ss.tokenHash = hashToken cr token ∧ ss.isExpiredAt nowMs = false ∧
      ∃ before call after, history (step cr) default ops = before ++ call :: after ∧ mintedSession call = some ss ∧
        ∀ c ∈ after, endsSession cr c ss = false := by
  rw [validateToken_ok_iff (run_coherent cr ops).tokens, run_sessions, Ledger.Rules.mem_standing]
  constructor
  · rintro ⟨⟨before, call, after, hist, hmint, hafter⟩, hhash, hlive⟩
    exact ⟨hhash, hlive, before, call, after, hist, hmint, fun c hc => by simpa [sessionRules] using hafter c hc⟩
  · rintro ⟨hhash, hlive, before, call, after, hist, hmint, hafter⟩
    exact ⟨⟨before, call, after, hist, hmint, fun c hc => by simp [sessionRules, hafter c hc]⟩, hhash, hlive⟩

/-! ## Passwords -/

/-- A password, and the salt it was hashed with, for a user. -/
structure Password where
  tenant : TenantId
  user : UserId
  plain : String
  salt : List UInt8

/-- The password that a call set. -/
def newPassword : StoreCall → Option Password
  | (.setPassword tenant user plain salt, .ok _) => some { tenant, user, plain, salt }
  | _                                            => none

/-- The call sets another password for the same user. -/
def resetsPassword (c : StoreCall) (p : Password) : Bool :=
  match newPassword c with
  | none   => false
  | some q => p.tenant = q.tenant ∧ p.user = q.user

def passwordRules : Ledger.Rules StoreCall Password where
  enters := newPassword
  spares c p := !resetsPassword c p

namespace StoreState

/-- A user record holds the hash of the password on the book, or none where the book has none. -/
def Hashed (cr : Crypto) (s : StoreState) (book : List Password) : Prop :=
  ∀ i t u, s.tenants.lookup i = some t → u ∈ t.users → ∀ hash, u.passwordHash = some hash ↔
    ∃ p ∈ book, p.tenant = ⟨i⟩ ∧ p.user = u.id ∧ hashPassword cr p.plain p.salt = .ok hash

/-- The store's hashes are those of the book, and the users of the book are older than the counter. -/
structure Booked (cr : Crypto) (s : StoreState) (book : List Password) : Prop where
  hashed : Hashed cr s book
  known : ∀ p ∈ book, p.user.raw ≤ s.nextUserId

variable {s' : StoreState} {book : List Password}

theorem post_book_same {c : StoreCall} (hc : newPassword c = none) : passwordRules.post book c = book := by
  simp [Ledger.Rules.post, passwordRules, resetsPassword, hc]

theorem mem_post_book {tenant : TenantId} {user : UserId} {plain : String} {salt : List UInt8} {r : Reply} {p : Password} :
    p ∈ passwordRules.post book (.setPassword tenant user plain salt, .ok r) ↔
      p ∈ book ∧ ¬ (p.tenant = tenant ∧ p.user = user) ∨ p = ⟨tenant, user, plain, salt⟩ := by
  simp [Ledger.Rules.post, passwordRules, resetsPassword, newPassword, imp_iff_not_or]

/-- Where every user record comes from one of the same id and hash, the book stays as it is. -/
theorem Hashed.of_back (h : Hashed cr s book) (hback : ∀ i t' u', s'.tenants.lookup i = some t' → u' ∈ t'.users →
    ∃ t u, s.tenants.lookup i = some t ∧ u ∈ t.users ∧ u.id = u'.id ∧ u.passwordHash = u'.passwordHash) :
    Hashed cr s' book := by
  intro i t' u' ht' hu' hash
  obtain ⟨t, u, ht, hu, hid, hpw⟩ := hback i t' u' ht' hu'
  rw [← hpw, ← hid]
  exact h i t u ht hu hash

/-- `Retouches` where each new user record is an old one with other caps. -/
theorem Retouches.hashed {keep : Session → Bool} {id : TenantId} {t t' : Tenant} (hr : Retouches keep s id t t' s')
    (h : Hashed cr s book)
    (hback : ∀ u' ∈ t'.users, ∃ u ∈ t.users, u.id = u'.id ∧ u.passwordHash = u'.passwordHash) : Hashed cr s' book := by
  refine h.of_back fun i v u' hv hu' => ?_
  rw [hr.lookup] at hv
  split at hv
  · rename_i hi
    obtain rfl := Option.some.inj hv
    obtain ⟨u, hu, hsame⟩ := hback u' hu'
    exact ⟨t, u, by rw [hi]; exact hr.live, hu, hsame⟩
  · exact ⟨v, u', hv, hu', rfl, rfl⟩

theorem Recounts.hashed {chain : List TenantId} {f : Tenant → QuotaUsage} (hr : Recounts s chain f s')
    (h : Hashed cr s book) : Hashed cr s' book := by
  refine h.of_back fun i t' u' ht' hu' => ?_
  rw [hr.lookup, Option.map_eq_some_iff] at ht'
  obtain ⟨t, ht, rfl⟩ := ht'
  refine ⟨t, u', ht, ?_, rfl, rfl⟩
  split at hu' <;> exact hu'

theorem Drops.hashed {keep : Session → Bool} {id : TenantId} {t : Tenant} (hd : Drops keep s id t s')
    (h : Hashed cr s book) : Hashed cr s' book :=
  h.of_back fun _ u v hu hv => ⟨u, v, (hd.back hu).2, hv, rfl, rfl⟩

theorem Grows.hashed {t : Tenant} (hg : s.Grows t s') (h : Hashed cr s book) : Hashed cr s' book := by
  refine h.of_back fun i u v hu hv => ?_
  rw [hg.lookup] at hu
  split at hu
  · -- the new tenant has no users
    obtain rfl := Option.some.inj hu
    rw [hg.users] at hv
    cases hv
  · exact ⟨u, v, hu, hv, rfl, rfl⟩

/-- A new user has no password, and none is on the book for its id. -/
theorem addUser_hashed (tenant : TenantId) (userName : String) (requestedCaps : TenantCaps) (h : Booked cr s book) :
    Hashed cr (s.addUser tenant userName requestedCaps).2 book := by
  unfold addUser
  split
  · exact h.hashed
  split
  · exact h.hashed
  rename_i t ht
  split
  · exact h.hashed
  split
  · exact h.hashed
  split
  · exact h.hashed
  rename_i idRaw hid
  obtain ⟨rfl, -⟩ := checkedAdd64_eq_some hid
  intro i t' u' ht' hu' hash
  rw [show (put { s with nextUserId := s.nextUserId + 1 } tenant.raw _).tenants = s.tenants.insert tenant.raw _ from rfl,
    Assoc.lookup_insert_ite] at ht'
  split at ht'
  · rename_i hi
    obtain rfl := Option.some.inj ht'
    rcases List.mem_append.1 hu' with hu' | hu'
    · exact h.hashed i t u' (by rw [hi]; exact ht) hu' hash
    · obtain rfl := List.mem_singleton.1 hu'
      refine iff_of_false (by simp) ?_
      rintro ⟨p, hp, -, hid, -⟩
      have hle := h.known p hp
      rw [hid] at hle
      exact absurd hle (Nat.not_succ_le_self _)
  · exact h.hashed i t' u' ht' hu' hash

/-- The user's record gets the new hash, and the book the password. -/
theorem setPassword_booked (tenant : TenantId) (user : UserId) (plain : String) (salt : List UInt8) (hu : s.UsersWf)
    (h : Booked cr s book) :
    (∃ e, s.setPassword cr tenant user plain salt = (.error e, s)) ∨
    ∃ s', s.setPassword cr tenant user plain salt = (.ok (), s') ∧
      Booked cr s' (passwordRules.post book (.setPassword tenant user plain salt, .ok .done)) := by
  unfold setPassword
  split
  · exact .inl ⟨_, rfl⟩
  rename_i new hnew
  split
  · exact .inl ⟨_, rfl⟩
  rename_i t ht
  split
  · exact .inl ⟨_, rfl⟩
  rename_i k hk
  refine .inr ⟨_, rfl, ?_⟩
  obtain ⟨hlt, hkuser, -⟩ := List.findIdx?_eq_some_iff_getElem.1 hk
  have hkuser : t.users[k].id = user := by simpa using hkuser
  have hnd : (t.users.map (·.id)).Nodup := by
    have := hu.ids tenant.raw
    rwa [roster_of_lookup ht, List.map_map] at this
  -- the records of other users
  have hother : ∀ i t' u, s.tenants.lookup i = some t' → u ∈ t'.users → ¬ (i = tenant.raw ∧ u.id = user) → ∀ hash,
      u.passwordHash = some hash ↔ ∃ p ∈ passwordRules.post book (.setPassword tenant user plain salt, .ok .done),
        p.tenant = ⟨i⟩ ∧ p.user = u.id ∧ hashPassword cr p.plain p.salt = .ok hash := by
    intro i t' u ht' hmem hne hash
    rw [h.hashed i t' u ht' hmem hash]
    refine exists_congr fun p => ?_
    rw [mem_post_book]
    constructor
    · rintro ⟨hp, htn, hus, hh⟩
      refine ⟨.inl ⟨hp, fun hsame => hne ?_⟩, htn, hus, hh⟩
      exact ⟨congrArg TenantId.raw (htn.symm.trans hsame.1), hus.symm.trans hsame.2⟩
    · rintro ⟨⟨hp, -⟩ | rfl, htn, hus, hh⟩
      · exact ⟨hp, htn, hus, hh⟩
      · exact absurd ⟨congrArg TenantId.raw htn.symm, hus.symm⟩ hne
  refine ⟨?_, fun p hp => ?_⟩
  rotate_left
  · rcases mem_post_book.1 hp with ⟨hp, -⟩ | rfl
    · exact h.known p hp
    · have hmem : (user, t.users[k].name) ∈ s.roster tenant.raw := by
        rw [roster_of_lookup ht, ← hkuser]
        exact List.mem_map_of_mem (List.getElem_mem hlt)
      exact hu.le _ _ hmem
  intro i t' u' ht' hu' hash
  simp only [put, Assoc.lookup_insert_ite] at ht'
  split at ht'
  · rename_i hi
    obtain rfl := Option.some.inj ht'
    obtain ⟨j, hj⟩ := List.mem_iff_getElem?.1 hu'
    rw [List.getElem?_modify, Option.map_eq_map, Option.map_eq_some_iff] at hj
    obtain ⟨u, hju, rfl⟩ := hj
    by_cases hkj : k = j
    · -- the user whose password is set
      subst hkj
      obtain rfl : t.users[k] = u := by simpa [hlt] using hju
      simp only [if_true, hkuser, Option.some.injEq, mem_post_book]
      constructor
      · rintro rfl
        exact ⟨⟨tenant, user, plain, salt⟩, .inr rfl, TenantId.ext hi.symm, rfl, hnew⟩
      · rintro ⟨p, ⟨-, hne⟩ | rfl, htn, hus, hh⟩
        · exact absurd ⟨htn.trans (TenantId.ext hi), hus⟩ hne
        · exact Except.ok.inj (hnew.symm.trans hh)
    · simp only [hkj, if_false]
      refine hother i t u (by rw [hi]; exact ht) (List.mem_of_getElem? hju) (fun hsame => hkj ?_) hash
      have hids : (t.users.map (·.id))[k]? = (t.users.map (·.id))[j]? := by
        rw [List.getElem?_map, List.getElem?_map, hju, List.getElem?_eq_getElem hlt, Option.map_some, Option.map_some,
          hkuser, hsame.2]
      exact (List.getElem?_inj (by simpa using hlt) hnd).1 hids
  · rename_i hi
    exact hother i t' u' ht' hu' (fun hsame => hi hsame.1) hash

end StoreState

/-- The calls that neither add a user nor set a password. -/
theorem Effect.hashed {op : Op} (he : Effect cr s op s') (h : Hashed cr s book)
    (hadd : ∀ tenant userName caps, op ≠ .addUser tenant userName caps)
    (hset : ∀ tenant user plain salt, op ≠ .setPassword tenant user plain salt) : Hashed cr s' book := by
  cases he with
  | same => exact h
  | bumped => exact h
  | grown hg => exact hg.hashed h
  | dropped hd => exact hd.hashed h
  | userAdded => exact absurd rfl (hadd _ _ _)
  | userRemoved hr => exact hr.hashed h fun u hu => ⟨u, (List.mem_filter.1 hu).1, rfl, rfl⟩
  | passwordSet => exact absurd rfl (hset _ _ _ _)
  | sessionMinted => exact h
  | sessionsRetained => exact h
  | rotated _ hr =>
    refine hr.hashed h fun u' hu' => ?_
    obtain ⟨u, hu, rfl⟩ := List.mem_map.1 hu'
    exact ⟨u, hu, by split <;> exact ⟨rfl, rfl⟩⟩
  | charged hr => exact hr.hashed h
  | released hr => exact hr.hashed h
  | takenApart hp =>
    induction hp with
    | refl => exact h
    | tail _ hlast ih =>
      obtain ⟨id, t, hd⟩ := hlast
      exact hd.hashed ih

/-- **The password hashes of a store follow the ledger**, whatever the call and its answer. -/
theorem passwords_step (cr : Crypto) (hwf : s.TreeWf) (hu : s.UsersWf) (h : Booked cr s book) (op : Op) :
    Booked cr (step cr s op).2 (passwordRules.post book (op, (step cr s op).1)) := by
  by_cases hset : ∃ tenant user plain salt, op = .setPassword tenant user plain salt
  · obtain ⟨tenant, user, plain, salt, rfl⟩ := hset
    rcases setPassword_booked tenant user plain salt hu h with ⟨e, he⟩ | ⟨s', he, hs'⟩ <;> simp only [step, answer, he]
    · rw [post_book_same rfl]
      exact h
    · exact hs'
  have hsame : newPassword (op, (step cr s op).1) = none := by
    unfold newPassword
    split
    · rename_i heq
      exact absurd ⟨_, _, _, _, congrArg Prod.fst heq⟩ hset
    · rfl
  have heff := step_effect cr hwf op
  rw [post_book_same hsame]
  refine ⟨?_, fun p hp => (h.known p hp).trans (heff.counters hwf).2⟩
  by_cases hadd : ∃ tenant userName caps, op = .addUser tenant userName caps
  · obtain ⟨tenant, userName, caps, rfl⟩ := hadd
    simp only [step, answer_snd]
    exact addUser_hashed tenant userName caps h
  · exact heff.hashed h.hashed (fun tenant userName caps he => hadd ⟨tenant, userName, caps, he⟩)
      (fun tenant user plain salt he => hset ⟨tenant, user, plain, salt, he⟩)

theorem run_booked (cr : Crypto) (ops : List Op) :
    Booked cr (run (step cr) default ops) (passwordRules.standing (history (step cr) default ops)) := by
  have hstart : (default : StoreState).TreeWf ∧ (default : StoreState).UsersWf ∧
      Booked cr default (passwordRules.standing []) := by
    refine ⟨treeWf_default, usersWf_default, fun i t u ht => ?_, fun p hp => ?_⟩
    · cases ht
    · cases hp
  refine (inv_history (I := fun (s : StoreState) past => s.TreeWf ∧ s.UsersWf ∧ Booked cr s (passwordRules.standing past))
    ?_ hstart ops).2.2
  rintro s past op ⟨hwf, hu, hb⟩
  refine ⟨step_treeWf cr s op hwf, (step_effect cr hwf op).usersWf hwf hu, ?_⟩
  rw [Ledger.Rules.standing_concat]
  exact passwords_step cr hwf hu hb op

/-- A name and a password are accepted for the user of that name, if its hash is of a password they match. -/
theorem authenticate_ok_iff (hwf : s.TreeWf) (h : s.Coherent) {tenantName userName password : String} {tid : TenantId} {uid : UserId}
    {caps : TenantCaps} : s.authenticate cr tenantName userName password = .ok (tid, uid, caps) ↔
      ∃ t u, s.tenants.lookup tid.raw = some t ∧ t.name = tenantName ∧ u ∈ t.users ∧ u.name = userName ∧ u.id = uid ∧
        u.caps = caps ∧ ∃ hash, u.passwordHash = some hash ∧ verifyPassword cr password hash = .ok () := by
  constructor
  · intro hok
    rw [authenticate] at hok
    split at hok
    · cases hok
    rename_i i hname
    split at hok
    · cases hok
    rename_i t ht
    split at hok
    · cases hok
    rename_i u hu
    split at hok
    · cases hok
    rename_i hash hhash
    split at hok
    · cases hok
    rename_i hver
    simp only [Except.ok.injEq, Prod.mk.injEq] at hok
    obtain ⟨rfl, rfl, rfl⟩ := hok
    obtain ⟨t', ht', hn⟩ := (hwf.names _ _).1 hname
    obtain rfl := Option.some.inj (ht.symm.trans ht')
    exact ⟨t, u, ht, hn, List.mem_of_find?_eq_some hu, by simpa using List.find?_some hu, rfl, rfl, hash, hhash, hver⟩
  · rintro ⟨t, u, ht, rfl, hu, rfl, rfl, rfl, hash, hhash, hver⟩
    have hname : s.byName.lookup t.name = some tid.raw := (hwf.names _ _).2 ⟨t, ht, rfl⟩
    have hfind : t.users.find? (fun v => v.name == u.name) = some u := by
      cases hf : t.users.find? (fun v => v.name == u.name) with
      | none => exact absurd (List.find?_eq_none.1 hf u hu) (by simp)
      | some v =>
        have hv : v.name = u.name := by simpa using List.find?_some hf
        rw [List.inj_on_of_nodup_map (h.userNames _ t ht) (List.mem_of_find?_eq_some hf) hu hv]
    simp [authenticate, hname, ht, hfind, hhash, hver]

/-- **A name and a password log a user in iff the user is there and the password matches the last one a call of the run
set for it.**  A refused `set_password` sets nothing, and no other call does. -/
theorem authenticate_iff (cr : Crypto) (ops : List Op) (tenantName userName password : String) (tid : TenantId)
    (uid : UserId) (caps : TenantCaps) :
    (run (step cr) default ops).authenticate cr tenantName userName password = .ok (tid, uid, caps) ↔
      (∃ t u, (run (step cr) default ops).tenants.lookup tid.raw = some t ∧ t.name = tenantName ∧ u ∈ t.users ∧
        u.name = userName ∧ u.id = uid ∧ u.caps = caps) ∧
      ∃ before call after p hash, history (step cr) default ops = before ++ call :: after ∧ newPassword call = some p ∧
        p.tenant = tid ∧ p.user = uid ∧ (∀ c ∈ after, resetsPassword c p = false) ∧
        hashPassword cr p.plain p.salt = .ok hash ∧ verifyPassword cr password hash = .ok () := by
  have hb := run_booked cr ops
  rw [authenticate_ok_iff (run_treeWf cr ops) (run_coherent cr ops)]
  constructor
  · rintro ⟨t, u, ht, hn, hu, hun, rfl, hc, hash, hhash, hver⟩
    obtain ⟨p, hp, htn, hus, hh⟩ := (hb.hashed tid.raw t u ht hu hash).1 hhash
    obtain ⟨before, call, after, hist, hset, hafter⟩ := (Ledger.Rules.mem_standing _).1 hp
    exact ⟨⟨t, u, ht, hn, hu, hun, rfl, hc⟩, before, call, after, p, hash, hist, hset, htn, hus,
      fun c hc => by simpa [passwordRules] using hafter c hc, hh, hver⟩
  · rintro ⟨⟨t, u, ht, hn, hu, hun, rfl, hc⟩, before, call, after, p, hash, hist, hset, htn, hus, hafter, hh, hver⟩
    have hp : p ∈ passwordRules.standing (history (step cr) default ops) := (Ledger.Rules.mem_standing _).2
      ⟨before, call, after, hist, hset, fun c hc => by simp [passwordRules, hafter c hc]⟩
    exact ⟨t, u, ht, hn, hu, hun, rfl, hc, hash, (hb.hashed tid.raw t u ht hu hash).2 ⟨p, hp, htn, hus, hh⟩, hver⟩

end Celium
